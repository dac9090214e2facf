import Watchtower.Game.Status

/-!
# The roster of tracked games

* `Roster τ` : the addresses of tracked games, the tasks of type `τ` that still run, and the results
  of those that have ended but have not been fetched;
* `Roster.track` : starts a task for a game in progress that is not tracked;
* `Roster.finish` : a task ends with the last status of its game;
* `Roster.lose` : a task breaks off without a result, and its game stays tracked;
* `Roster.join` : fetches the result of the task that ended first. Only then is its game no longer
  tracked.
-/

namespace Watchtower

structure Roster (τ : Type) where
  tracked : List Address := []
  running : List (Address × τ) := []
  /-- Results not fetched yet, the earliest first. -/
  finished : List (Address × Game.Status) := []

/-- What comes of asking for a result. -/
inductive Joined
  | ended (address : Address) (status : Game.Status)
  /-- No task is left. -/
  | nothing
  /-- Tasks are running, and none has ended. -/
  | pending
  deriving DecidableEq

namespace Roster

variable {τ : Type}

/-- Whether a task was started, and the roster then. -/
def track (r : Roster τ) (address : Address) (status : Game.Status) (task : τ) :
    Bool × Roster τ :=
  if status = .inProgress ∧ address ∉ r.tracked then
    (true, { r with
      tracked := address :: r.tracked
      running := r.running ++ [(address, task)] })
  else (false, r)

/-- The task goes on; it runs after all others next time. -/
def resume (r : Roster τ) (address : Address) (task : τ) : Roster τ :=
  { r with running := r.running.filter (·.1 ≠ address) ++ [(address, task)] }

def finish (r : Roster τ) (address : Address) (status : Game.Status) : Roster τ :=
  { r with
    running := r.running.filter (·.1 ≠ address)
    finished := r.finished ++ [(address, status)] }

def lose (r : Roster τ) (address : Address) : Roster τ :=
  { r with running := r.running.filter (·.1 ≠ address) }

def join (r : Roster τ) : Joined × Roster τ :=
  match r.finished with
  | (address, status) :: finished =>
    (.ended address status, { r with tracked := r.tracked.erase address, finished })
  | [] => (if r.running.isEmpty then .nothing else .pending, r)

end Roster

end Watchtower
