import Watchtower.Inspector
import Watchtower.Proofs.Triple

/-!
# Properties that loads and the inspector have because their parts have them

* `Sequences P` : `P` holds of values and faults, and of a sequence if it holds of its parts;
* `Straight P` : and of single questions, but perhaps not of the question whether a claim is
  challenged;
* `Composes P` : and of work that never returns, so of a loop;
* `Sequences.loadOne`, `Sequences.loadRange` : if `P` holds of lookups, of stores and of all that is
  asked while loading (`Watch.Ask.OfLoading`), then of the loads;
* `Straight.detectFault`, `Straight.inspect`, `Composes.ancestorsSound`, `Composes.act` : if it
  holds of the loads, then of all that the inspector does. To miss a window is reported, so the
  last of them asks for the report as well;
* `composes_keeps`, `composes_asks` : to keep an invariant of the cache, and to ask only what may be
  asked, are such properties;
* `asks_loadOne`, `asks_loadRange` : so the loads ask only what is asked while loading.
-/

namespace Watchtower

open Work OutputCache

variable {γ : Type}

/-- What may be asked while outputs are loaded. -/
def Watch.Ask.OfLoading : Watch.Ask γ → Prop
  | .stopping | .pause .. | .fetch (.output _) | .fetch (.outputs _) => True
  | .notify .outputDropped | .notify .outputsMissing | .notify (.batchFailed _) => True
  | _ => False

/-- Whether a claim is challenged. -/
def Read.OfFlag : Read → Prop
  | .challenged _ => True
  | _ => False

structure Sequences (P : (α : Type) → Work γ α → Prop) : Prop where
  pure : ∀ {α : Type} (a : α), P α (pure a)
  ofExcept : ∀ {α : Type} (r : Except Fault α), P α (ofExcept r)
  bind : ∀ {α β : Type} {x : Work γ α} {f : α → Work γ β}, P α x → (∀ a, P β (f a)) → P β (x >>= f)

structure Straight (P : (α : Type) → Work γ α → Prop) : Prop extends Sequences P where
  within : ∀ {α : Type} {x : Work γ α} (context : Context), P α x → P α (within context x)
  read : ∀ (game : γ) (what : Read), ¬ what.OfFlag → P _ (read game what)
  fetch : ∀ what : Fetch, P _ (fetch what)
  now : P _ (ask .now)

structure Composes (P : (α : Type) → Work γ α → Prop) : Prop extends Straight P where
  stuck : ∀ {α : Type}, P α stuck

/-! ## Loads -/

namespace Sequences

variable {P : (α : Type) → Work γ α → Prop} (h : Sequences P)
include h

section
variable (hlookup : ∀ block, P _ (lookup block)) (hstore : ∀ output, P _ (store output))
  (hask : ∀ q : Watch.Ask γ, q.OfLoading → P _ (ask q))
include hlookup hstore hask

omit hlookup hstore in
protected theorem checkpoint : P _ checkpoint := by
  refine h.bind (hask .stopping trivial) fun stopping => ?_
  split
  · exact h.ofExcept (.error Cause.cancelled)
  · exact h.pure ()

protected theorem loadOne (block : UInt64) : P _ (loadOne block) := by
  refine h.bind (hlookup block) fun found => ?_
  cases found with
  | some output => exact h.pure output
  | none =>
    refine h.bind (h.checkpoint hask) fun _ => ?_
    have hfetch : P _ (fetch (.output block)) := by
      refine h.bind (hask (.fetch (.output block)) trivial) fun reply => ?_
      cases reply with
      | none => exact h.ofExcept (.error Cause.cancelled)
      | some result => exact h.ofExcept result
    exact h.bind hfetch fun output => h.bind (hstore output) fun _ => h.pure output

omit hstore hask in
protected theorem lookupAll (blocks : List UInt64) : P _ (lookupAll blocks) := by
  induction blocks with
  | nil => exact h.pure ([], [])
  | cons block blocks ih =>
    refine h.bind (hlookup block) fun found => h.bind ih fun (hits, missing) => ?_
    cases found <;> exact h.pure _

omit hlookup hstore in
protected theorem fetchBatch (hstuck : P (List Rollup.Output) stuck) (blocks : List UInt64)
    (rounds : Nat) : P _ (fetchBatch blocks rounds) := by
  induction rounds with
  | zero => exact hstuck
  | succ rounds ih =>
    refine h.bind (h.checkpoint hask) fun _ => ?_
    refine h.bind (hask (.fetch (.outputs blocks)) trivial) fun reply => ?_
    rcases reply with _ | fault | outputs
    · exact h.ofExcept (.error Cause.cancelled)
    · refine h.bind (hask (.notify (.batchFailed fault)) trivial) fun _ => ?_
      refine h.bind (h.checkpoint hask) fun _ => ?_
      refine h.bind (hask (.pause batchRetryDelay 0) trivial) fun cut => ?_
      cases cut with
      | true => exact h.ofExcept (.error Cause.cancelled)
      | false => exact ih
    · exact h.pure outputs

omit hlookup in
protected theorem accept (outputs : List Rollup.Output) (requested : List UInt64) :
    P _ (accept requested outputs) := by
  induction outputs generalizing requested with
  | nil => exact h.pure []
  | cons output outputs ih =>
    rw [accept]
    split
    · exact h.bind (hstore output) fun _ => h.bind (ih _) fun _ => h.pure _
    · exact h.bind (hask (.notify .outputDropped) trivial) fun _ => ih requested

protected theorem loadRange_of_fetchBatch {rounds : Nat}
    (hbatch : ∀ blocks, P _ (fetchBatch blocks rounds)) (range : Game.Range) :
    P _ (loadRange rounds range) := by
  refine h.bind (h.lookupAll hlookup range.positions) fun (hits, missing) => ?_
  have hmissing : P _ (loadMissing rounds missing) := by
    unfold loadMissing
    split
    · exact h.pure []
    · exact h.bind (hbatch missing) fun outputs => h.accept hstore hask outputs missing
  refine h.bind hmissing fun fetched => ?_
  unfold arrange
  split
  · exact h.bind (hask (.notify .outputsMissing) trivial) fun _ => h.pure _
  · exact h.pure _

protected theorem loadRange (hstuck : P (List Rollup.Output) stuck) (rounds : Nat)
    (range : Game.Range) : P _ (loadRange rounds range) :=
  h.loadRange_of_fetchBatch hlookup hstore hask
    (fun blocks => h.fetchBatch hask hstuck blocks rounds) range

end

end Sequences

/-! ## The inspector -/

namespace Straight

variable {P : (α : Type) → Work γ α → Prop} (h : Straight P)
include h

theorem detectFault {rounds : Nat} {range : Game.Range} (hone : P _ (loadOne range.last))
    (hrange : P _ (loadRange rounds range)) (game : γ) (head : L1.Head) :
    P _ (detectFault rounds game range head) := by
  refine h.bind (h.read game .rootClaim id) fun rootClaim => ?_
  refine h.bind hone fun last => ?_
  split
  · exact h.pure _
  · refine h.bind (h.read game .claimsHash id) fun committed => ?_
    refine h.bind hrange fun outputs => ?_
    split
    · exact h.pure _
    · refine h.bind (h.within _ (h.read game (.claims head) id)) fun claimed => ?_
      exact h.bind (h.ofExcept _) fun index => h.pure _

theorem inspect {i : Inspector γ} (hone : P _ (loadOne i.range.last))
    (hrange : P _ (loadRange i.rounds i.range))
    (hflag : ∀ index, P _ (Work.read i.game (.challenged index))) : P _ i.inspect := by
  refine h.bind (h.detectFault hone hrange i.game i.head) fun fault => ?_
  refine h.bind h.now fun now => ?_
  cases fault with
  | none => exact h.pure _
  | some target => exact h.bind (hflag target) fun _ => h.pure _

theorem settlement (i : Inspector γ) (succeeded : Bool) : P _ (i.settlement succeeded) := by
  cases succeeded with
  | true => exact h.pure []
  | false => exact h.bind (h.read i.game .canResolveClaim id) fun _ => h.pure _

theorem ends (i : Inspector γ) : P _ i.ends := by
  refine h.bind h.now fun now => ?_
  split
  · exact h.read i.game .canResolve id
  · exact h.pure false

end Straight

namespace Composes

variable {P : (α : Type) → Work γ α → Prop} (h : Composes P)
  (hone : ∀ block, P _ (loadOne block)) (hrange : ∀ rounds range, P _ (loadRange rounds range))
include h hone hrange

theorem ancestorsSound (i : Inspector γ) (rounds : Nat) (next : Option γ) :
    P _ (i.ancestorsSound rounds next) := by
  induction rounds generalizing next with
  | zero =>
    cases next with
    | none => exact h.pure true
    | some ancestor => exact h.stuck
  | succ rounds ih =>
    cases next with
    | none => exact h.pure true
    | some ancestor =>
      refine h.bind (h.read ancestor .status id) fun status => ?_
      cases status with
      | defenderWins => exact h.pure true
      | challengerWins => exact h.pure false
      | inProgress =>
        refine h.bind (h.read ancestor .blockRange id) fun (first, last) => ?_
        refine h.bind (h.read ancestor .blockDistance id) fun distance => ?_
        refine h.bind (h.ofExcept _) fun range => ?_
        refine h.bind (h.read ancestor .l1Head id) fun hash => ?_
        refine h.bind (h.fetch (.header hash)) fun header => ?_
        refine h.bind (h.ofExcept _) fun head => ?_
        refine h.bind (h.detectFault (hone _) (hrange _ _) ancestor head) fun fault => ?_
        split
        · exact h.pure false
        · exact h.bind (h.read ancestor .parent id) ih

variable (hflag : ∀ game index, P _ (Work.read game (.challenged index)))
  (hmissed : ∀ index, P _ (notify (.windowMissed index)))
include hflag hmissed

theorem signal (i : Inspector γ) : P _ i.signal := by
  refine h.bind (h.inspect (hone _) (hrange _ _) (hflag i.game)) fun finding => ?_
  cases finding.verdict with
  | noFault => exact h.pure []
  | alreadyChallenged index => exact h.pure []
  | windowMissed index => exact h.bind (hmissed index) fun _ => h.pure []
  | challenge index =>
    refine h.bind (h.read i.game .parent id) fun parent => ?_
    exact h.bind (h.ancestorsSound hone hrange i i.rounds parent) fun _ => h.pure _

theorem act (i : Inspector γ) : P _ i.act := by
  refine h.bind (h.read i.game .status id) fun status => ?_
  split
  · exact h.pure []
  · refine h.bind (h.read i.game .challengeSuccess id) fun succeeded => ?_
    refine h.bind (h.settlement i succeeded) fun settling => ?_
    refine h.bind (h.ends i) fun ends => ?_
    split
    · exact h.pure _
    · split
      · exact h.pure settling
      · exact h.bind (h.signal hone hrange hflag hmissed i) fun _ => h.pure _

end Composes

theorem composes_keeps {rely : (Watch γ).Rely} {inv : OutputCache → Prop} :
    Composes (γ := γ) fun _ x => x.Keeps rely inv where
  pure := keeps_pure
  ofExcept := keeps_ofExcept
  stuck := keeps_stuck
  bind := Keeps.bind
  within _ := Keeps.within
  read game what _ := keeps_read game what
  fetch := keeps_fetch
  now := keeps_ask .now

theorem sequences_asks {may : Watch.Ask γ → Prop} :
    Sequences (γ := γ) fun _ x => x.Asks may where
  pure := asks_pure
  ofExcept := asks_ofExcept
  bind := Asks.bind

theorem composes_asks {may : Watch.Ask γ → Prop}
    (hread : ∀ game what, ¬ what.OfFlag → may (.read game what)) (hfetch : ∀ what, may (.fetch what))
    (hnow : may .now) :
    Composes (γ := γ) fun _ x => x.Asks may where
  toSequences := sequences_asks
  stuck := asks_stuck
  within _ := Asks.within
  read game what h := asks_read (hread game what h)
  fetch what := asks_fetch (hfetch what)
  now := asks_ask hnow

theorem asks_loadOne (block : UInt64) : (loadOne (γ := γ) block).Asks Watch.Ask.OfLoading :=
  sequences_asks.loadOne (fun _ _ => trivial) (fun _ _ => trivial) (fun _ h => asks_ask h) block

theorem asks_loadRange (rounds : Nat) (range : Game.Range) :
    (loadRange (γ := γ) rounds range).Asks Watch.Ask.OfLoading :=
  sequences_asks.loadRange (fun _ _ => trivial) (fun _ _ => trivial) (fun _ h => asks_ask h)
    asks_stuck rounds range

end Watchtower
