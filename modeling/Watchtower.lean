import Watchtower.Discovery
import Watchtower.Dispatch
import Watchtower.Json.Document
import Watchtower.Live
import Watchtower.Main
import Watchtower.Proofs.Evidence
import Watchtower.Retry
import Watchtower.Simulation.Flaky
import Watchtower.Simulation.Script
import Watchtower.Simulation.World
import Watchtower.Sources
import Watchtower.Tracking
import Watchtower.Proofs.Transparency
import Watchtower.Proofs.Outcome
import Watchtower.Proofs.Traces
import Watchtower.Proofs.Equipment
import Watchtower.Proofs.Ancestry
import Watchtower.Proofs.Settlement
import Watchtower.Proofs.Lifetime
import Watchtower.Proofs.Gaps
import Watchtower.Proofs.Accusation
import Watchtower.Proofs.Lifecycle
import Watchtower.Proofs.Precedence
import Watchtower.Proofs.Conduct
import Watchtower.Proofs.Remainder
import Watchtower.Proofs.Playing
import Watchtower.Proofs.Happenings
import Watchtower.Proofs.Bookkeeping
import Watchtower.Proofs.Dispatching
import Watchtower.Proofs.Ordering
import Watchtower.Proofs.Office
import Watchtower.Proofs.Scanning
import Watchtower.Proofs.Discovering
import Watchtower.Proofs.Repeating
import Watchtower.Proofs.Lineage
import Watchtower.Proofs.Heeding
import Watchtower.Proofs.Provenance
import Watchtower.Proofs.Chronicle
import Watchtower.Proofs.Pacing
import Watchtower.Proofs.Apart
import Watchtower.Proofs.Straying
import Watchtower.Proofs.Traffic
import Watchtower.Proofs.Creation
import Watchtower.Proofs.Indexing
import Watchtower.Proofs.Batching
import Watchtower.Proofs.Decoding
import Watchtower.Proofs.Grammar
import Watchtower.Proofs.Spelling
import Watchtower.Proofs.Numerals
import Watchtower.Proofs.Skipping
import Watchtower.Proofs.Scalars
import Watchtower.Proofs.Records
import Watchtower.Proofs.Reporting
import Watchtower.Proofs.Attending
import Watchtower.Proofs.Reception
import Watchtower.Proofs.Lobby
