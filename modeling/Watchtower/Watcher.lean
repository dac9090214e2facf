import Watchtower.Inspector

/-!
# The watcher of one game

* `Settings` : what all watchers of a process share;
* `Watcher` : a game, its last known status, and an inspector with its cache while the game is in
  progress;
* `Watcher.of` : reads what is needed to watch a game. A game that is over gets a watcher that does
  nothing;
* `Watcher.progress` : one tick: checks that the rollup node has come as far as the game's L1 head,
  does what the inspector says, and reads the status anew. No fault escapes; each is reported, and
  the next tick tries again;
* `Watcher.tick` : the same tick, of which only the watcher after it is kept.
-/

namespace Watchtower

variable {γ : Type}

structure Settings where
  /-- The capacity of each game's cache. -/
  cacheSize : Nat
  /-- The stride of a game that does not say its own. -/
  defaultStride : UInt64
  /-- How many rounds a loop of an inspector may go. -/
  rounds : Nat

structure Watcher (γ : Type) where
  game : γ
  address : Address
  status : Game.Status
  active : Option (Inspector γ × OutputCache)

namespace Watcher

/-- The inspector of a game in progress, and the cache it starts with. -/
def equip (settings : Settings) (game : γ) : Work γ (Inspector γ × OutputCache) := do
  let header ← Work.fetch (.header (← Work.read game .l1Head))
  let head ← Work.ofExcept (L1.Head.ofHeader header)
  let createdAt ← Work.read game .createdAt
  let detectDuration ← Work.read game .detectDuration
  let clockDuration ← Work.read game .clockDuration
  let distance ← Work.read game .blockDistance
  let stride := if distance = 0 then settings.defaultStride else distance
  let (first, last) ← Work.read game .blockRange
  let range ← Work.ofExcept (Game.Range.of first last stride)
  let cache ← Work.ofExcept (OutputCache.of settings.cacheSize stride)
  return (⟨game, range, ⟨createdAt, detectDuration, clockDuration⟩, head, settings.rounds⟩, cache)

/-- A watcher that has nothing to do. -/
def idle (game : γ) (address : Address) (status : Game.Status) : Watcher γ :=
  ⟨game, address, status, none⟩

def of (settings : Settings) (game : γ) (address : Address) :
    Program (Watch γ) (Except Fault (Watcher γ)) := do
  match ← Watch.ask (.read game .status) with
  | .error fault => return .error fault
  | .ok status =>
    if status ≠ .inProgress then return .ok (idle game address status)
    -- No output is loaded yet, so any cache will do here.
    let (equipment, _) ← equip settings game ⟨settings.defaultStride, .empty 0⟩
    return equipment.map fun active => ⟨game, address, status, some active⟩

/-- Sends the actions in order; one that fails does not hold up the next. -/
def perform (address : Address) : List Game.Action → Program (Watch γ) Unit
  | [] => return ()
  | action :: actions => do
    match ← Watch.ask (.submit address action) with
    | .ok () => pure ()
    | .error fault => Watch.ask (.notify (.submissionFailed action fault))
    perform address actions

/-- Acts on the game and returns the cache as it is then. -/
def actOnce (address : Address) (inspector : Inspector γ) (cache : OutputCache) :
    Program (Watch γ) OutputCache := do
  match ← inspector.act cache with
  | (.ok actions, cache) =>
    perform address actions
    return cache
  | (.error fault, cache) =>
    Watch.ask (.notify (.inspectionFailed fault))
    return cache

/-- Reads the number of claims of a game that goes on, to report that it can be read. -/
def probeClaimCount (game : γ) : Program (Watch γ) Unit := do
  match ← Watch.ask (.read game .claimCount) with
  | .ok _ => return ()
  | .error fault => Watch.ask (.notify (.claimCountUnreadable fault))

/-- Of a game that goes on, the number of claims is read. -/
def probe (game : γ) (status : Game.Status) : Program (Watch γ) Unit :=
  if status = .inProgress then probeClaimCount game else return ()

/-- The end of a tick: the status that it returns, and the watcher after it. -/
def conclude (w : Watcher γ) (inspector : Inspector γ) (cache : OutputCache) :
    Program (Watch γ) (Game.Status × Watcher γ) := do
  match ← Watch.ask (.read w.game .status) with
  | .error fault =>
    Watch.ask (.notify (.statusUnreadable fault))
    return (w.status, { w with active := some (inspector, cache) })
  | .ok status =>
    probe w.game status
    let active := if status = .inProgress then some (inspector, cache) else none
    return (status, { w with status, active })

/-- One tick: the status that it returns, and the watcher after it. -/
def progress (w : Watcher γ) : Program (Watch γ) (Game.Status × Watcher γ) := do
  match w.active with
  | none => return (w.status, w)
  | some (inspector, cache) =>
    match ← Watch.ask (.validate inspector.head) with
    | .error fault =>
      Watch.ask (.notify (if fault.isNotInSync then .nodeBehind fault else .syncCheckFailed fault))
      return (w.status, w)
    | .ok () => w.conclude inspector (← actOnce w.address inspector cache)

/-- One tick, whose status the watcher after it knows. -/
def tick (w : Watcher γ) : Program (Watch γ) (Watcher γ) :=
  w.progress >>= fun result => return result.2

end Watcher

end Watchtower
