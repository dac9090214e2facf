import Watchtower.Roster
import Watchtower.Watcher

/-!
# Many games, each on its own clockwork

Every tracked game has a task of its own: it ticks as soon as it runs, and then once a period, or
when the tick before is over if that takes longer. Time is virtual: it passes only while a schedule
is told to let it pass, and the work of a tick takes no time but what its questions take.

* `Polling` : how the tasks tick, and what answers them, after which delay;
* `Progress`, `Polling.advance` : a tick up to its next wait;
* `Task`, `Polling.go` : a game's task, and what it does once it is due;
* `Schedule` : the time, the roster of tasks, the state of what answers, and when each tick began;
* `Polling.step` : the task that is due first goes on;
* `Polling.pass` : lets time pass, `Polling.awaitNext` : waits for a task to end,
  `Polling.awaitAll` : waits for one after another.

At the end of a wait, a task that is due at that very moment has not run yet. A period of zero is
none to tick by: the tasks break off as soon as they run.
-/

namespace Watchtower

variable {γ σ : Type}

structure Polling (γ σ : Type) where
  /-- Milliseconds from the beginning of a tick to the next. -/
  period : Nat
  tick : Watcher γ → Program (Watch γ) (Watcher γ)
  /-- The answer to a question that comes up in a tick of a game. -/
  answer : γ → (q : Watch.Ask γ) → σ → Watch.Reply γ q × σ
  /-- How many milliseconds the answer takes; nothing if it never comes. -/
  delay : γ → Watch.Ask γ → σ → Option Nat
  /-- Whether the signal to stop has been given. -/
  stopped : σ → Bool

inductive Progress (γ : Type)
  | ended (watcher : Watcher γ)
  /-- It goes on after a delay, or never. -/
  | waiting (delay : Option Nat) (rest : Program (Watch γ) (Watcher γ))

/-- The task of one game. -/
structure Task (γ : Type) where
  /-- The watcher after its last tick. -/
  watcher : Watcher γ
  /-- When the task goes on, if ever. -/
  due : Option Nat
  /-- When the present tick began and what is left of it, if the task is within one. -/
  present : Option (Nat × Program (Watch γ) (Watcher γ)) := none

inductive Outcome (γ : Type)
  | running (task : Task γ)
  | ended (status : Game.Status)
  /-- It broke off without a result. -/
  | lost

structure Schedule (γ σ : Type) where
  now : Nat
  roster : Roster (Task γ)
  world : σ
  /-- The games whose ticks began, and when, the latest first. -/
  begun : List (γ × Nat)

/-- Starts a task for a watcher, if its game is in progress and not tracked. -/
def Schedule.track (s : Schedule γ σ) (watcher : Watcher γ) : Bool × Schedule γ σ :=
  let (started, roster) :=
    s.roster.track watcher.address watcher.status ⟨watcher, some s.now, none⟩
  (started, { s with roster })

namespace Polling

variable (p : Polling γ σ)

/-- Runs until the next answer that takes time. -/
def advance (game : γ) : Program (Watch γ) (Watcher γ) → σ → Progress γ × σ
  | .done watcher, s => (.ended watcher, s)
  | .ask q next, s =>
    match p.delay game q s with
    | some 0 => advance game (next (p.answer game q s).1) (p.answer game q s).2
    | some delay => (.waiting (some delay) (next (p.answer game q s).1), (p.answer game q s).2)
    | none => (.waiting none .stuck, (p.answer game q s).2)
  | .stuck, s => (.waiting none .stuck, s)

/-- What a task does when it is due: it begins a tick or goes on with one, unless the signal to stop
has been given. The next tick is a period after this one began, but not before this one is over. -/
def go (now : Nat) (task : Task γ) (s : σ) : Outcome γ × σ :=
  if p.period = 0 then (.lost, s)
  else if p.stopped s then (.ended task.watcher.status, s)
  else
    let (began, rest) := task.present.getD (now, p.tick task.watcher)
    match p.advance task.watcher.game rest s with
    | (.waiting delay rest, s) =>
      (.running { task with due := delay.map (now + ·), present := some (began, rest) }, s)
    | (.ended watcher, s) =>
      if watcher.status = .inProgress then
        (.running ⟨watcher, some (max (began + p.period) now), none⟩, s)
      else (.ended watcher.status, s)

/-- When a task goes on. The signal to stop wakes every task. -/
def dueTime (s : Schedule γ σ) (task : Task γ) : Option Nat :=
  if p.stopped s.world then some s.now else task.due

/-- The task that goes on first, of those that go on before a time. Of several the one that has
waited longest is first. -/
def soonest (s : Schedule γ σ) (before : Nat) : Option (Address × Task γ × Nat) :=
  s.roster.running.foldl (fun best (address, task) =>
    match p.dueTime s task with
    | none => best
    | some due =>
      if due < before ∧ best.all fun (_, _, other) => due < other then some (address, task, due)
      else best) none

/-- The task that goes on first does so. -/
def step (s : Schedule γ σ) (before : Nat) : Option (Schedule γ σ) :=
  (p.soonest s before).map fun (address, task, due) =>
    let now := max s.now due
    let begins := task.present.isNone && !p.stopped s.world && p.period ≠ 0
    let begun := if begins then (task.watcher.game, now) :: s.begun else s.begun
    match p.go now task s.world with
    | (.running task, world) => ⟨now, s.roster.resume address task, world, begun⟩
    | (.ended status, world) => ⟨now, s.roster.finish address status, world, begun⟩
    | (.lost, world) => ⟨now, s.roster.lose address, world, begun⟩

/-- All tasks go on that do so before a time, in at most so many steps. -/
def runBefore (s : Schedule γ σ) (before : Nat) : (steps : Nat) → Schedule γ σ
  | 0 => s
  | steps + 1 =>
    match p.step s before with
    | none => s
    | some s => runBefore s before steps

/-- Lets time pass. -/
def pass (s : Schedule γ σ) (duration steps : Nat) : Schedule γ σ :=
  { p.runBefore s (s.now + duration) steps with now := s.now + duration }

/-- Tasks go on until one has ended or none is left, but only before a time. -/
def runToEnd (s : Schedule γ σ) (before : Nat) : (steps : Nat) → Schedule γ σ
  | 0 => s
  | steps + 1 =>
    if !s.roster.finished.isEmpty || s.roster.running.isEmpty then s
    else match p.step s before with
      | none => { s with now := before }
      | some s => runToEnd s before steps

/-- Waits for a task to end, for a limited time. All tasks due at the moment of its end go on. -/
def awaitNext (s : Schedule γ σ) (limit steps : Nat) : Joined × Schedule γ σ :=
  match s.roster.join with
  | (.pending, _) =>
    let s := p.runToEnd s (s.now + limit) steps
    let s := if s.roster.finished.isEmpty then s else p.runBefore s (s.now + 1) steps
    let (joined, roster) := s.roster.join
    (joined, { s with roster })
  | (joined, roster) => (joined, { s with roster })

/-- The results of at most so many tasks, in the order in which they end, as long as each ends
within the limit. -/
def awaitAll (s : Schedule γ σ) (limit steps : Nat) :
    (tasks : Nat) → List (Address × Game.Status) × Schedule γ σ
  | 0 => ([], s)
  | tasks + 1 =>
    match p.awaitNext s limit steps with
    | (.ended address status, s) =>
      let (others, s) := awaitAll s limit steps tasks
      ((address, status) :: others, s)
    | (_, s) => ([], s)

end Polling

end Watchtower
