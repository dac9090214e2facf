import Watchtower.Factory

/-!
# Finding the games to watch

Games are found in two ways: the ones that the factory lists already, and the events of those it
creates from then on. The subscription to the events comes first, so that no game is created unseen
while the list is read; a game may well be found twice.

* `Discovery.Origin` : the list or an event;
* `Discovery` : what the search talks to;
* `Discovery.scan` : the games in the list, the newest first, down to the first one that is too old;
* `Discovery.follow` : the games of the events, one after another, up to the signal to stop;
* `Discovery.discover` : subscribe, scan, follow.

A found game is welcomed: someone else looks after it, beside everything else, and reports what goes
wrong in the words for where it was found. A fault while a game is looked after ends nothing, but
one of the subscription or of the list ends the search.
-/

namespace Watchtower

/-- Where a game was found. -/
inductive Discovery.Origin
  | listed
  | announced
  deriving DecidableEq

/-- What is reported of a fault while a found game is looked after. -/
def Discovery.Origin.failure : Discovery.Origin → Fault → Notice
  | .listed => .gameFailed
  | .announced => .creationEventFailed

inductive Discovery.Ask
  /-- Events of games of a type are to be delivered from now on. -/
  | subscribe (gameType : UInt32)
  /-- The time in seconds since 1970. -/
  | now
  | gameCount
  | gameAt (index : Nat)
  /-- The next event; nothing once the signal to stop has been given or no event will come. -/
  | nextEvent
  | welcome (origin : Discovery.Origin) (game : Address)
  | notify (notice : Notice)
  deriving DecidableEq

abbrev Discovery.Reply : Discovery.Ask → Type
  | .subscribe _ => Except Fault Unit
  | .now => UInt64
  | .gameCount => Except Fault Nat
  | .gameAt _ => Except Fault Listing
  | .nextEvent => Option L1.Event
  | .welcome .. | .notify _ => Unit

abbrev Discovery : Interface := ⟨Discovery.Ask, Discovery.Reply⟩

namespace Discovery

def ask (q : Discovery.Ask) : Program Discovery (Discovery.Reply q) :=
  Program.query (I := Discovery) q

/-- A question that may fail. -/
def askSafely {α : Type} (p : Program Discovery (Except Fault α)) :
    ExceptT Fault (Program Discovery) α :=
  ExceptT.mk p

/-- Welcomes the games of a type among the first `count` in the list, from the newest down to the
first that was created before `earliest`. -/
def scanFrom (gameType : UInt32) (earliest : UInt64) :
    (count : Nat) → ExceptT Fault (Program Discovery) Unit
  | 0 => return ()
  | index + 1 => do
    let listing ← askSafely (ask (.gameAt index))
    if listing.createdAt < earliest then return ()
    if listing.gameType = gameType then ExceptT.lift (ask (.welcome .listed listing.game))
    scanFrom gameType earliest index

/-- Welcomes the games of a type that were created at most `window` seconds ago. -/
def scan (gameType : UInt32) (window : UInt64) : ExceptT Fault (Program Discovery) Unit := do
  let now ← ExceptT.lift (ask .now)
  let count ← askSafely (ask .gameCount)
  scanFrom gameType (satSub now window) count

/-- The game that an event announces stands in its second topic. -/
def announced? (event : L1.Event) : Option Address := event.topics[1]?.map Address.ofWord

/-- Welcomes the games of the next events, at most `events` of them. -/
def follow : (events : Nat) → Program Discovery Unit
  | 0 => .stuck
  | events + 1 => do
    match ← ask .nextEvent with
    | none => return ()
    | some event =>
      match announced? event with
      | some game => ask (.welcome .announced game)
      | none => ask (.notify (Origin.announced.failure Cause.eventWithoutGame))
      follow events

def discover (gameType : UInt32) (window : UInt64) (events : Nat) :
    ExceptT Fault (Program Discovery) Unit := do
  askSafely (ask (.subscribe gameType))
  scan gameType window
  ExceptT.lift (follow events)

end Discovery

end Watchtower
