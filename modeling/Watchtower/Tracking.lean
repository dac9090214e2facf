import Watchtower.Watcher

/-!
# Tracking games as they come and go

The roster of games keeps the tasks of the tracked ones. A loop brings to it what comes: watchers
that are handed over are to be tracked, and of a game whose task has ended the result is taken, so
that it may be tracked again.

* `Tracking γ` : what the loop talks to, the roster among it. Which of several things happens first
  is up to the surroundings;
* `Tracking.attend` : event after event, up to the signal to stop.
-/

namespace Watchtower

inductive Tracking.Event (γ : Type)
  | stopped
  | handedOver (watcher : Watcher γ)
  /-- The result of a task was taken. -/
  | ended (address : Address) (status : Game.Status)

inductive Tracking.Ask (γ : Type)
  /-- What happens next. -/
  | next
  /-- Starts a task for the game of a watcher, if it is in progress and not tracked. -/
  | track (watcher : Watcher γ)

/-- The roster says whether it has started a task. -/
abbrev Tracking.Reply (γ : Type) : Tracking.Ask γ → Type
  | .next => Tracking.Event γ
  | .track _ => Bool

abbrev Tracking (γ : Type) : Interface := ⟨Tracking.Ask γ, Tracking.Reply γ⟩

namespace Tracking

variable {γ : Type}

def ask (q : Tracking.Ask γ) : Program (Tracking γ) (Tracking.Reply γ q) :=
  Program.query (I := Tracking γ) q

/-- At most so many events. -/
def attend : (events : Nat) → Program (Tracking γ) Unit
  | 0 => .stuck
  | events + 1 => do
    match ← ask .next with
    | .stopped => return ()
    | .handedOver watcher =>
      -- A game may well be found twice: that it is tracked already is no fault.
      let _ ← ask (.track watcher)
      attend events
    | .ended .. => attend events

end Tracking

end Watchtower
