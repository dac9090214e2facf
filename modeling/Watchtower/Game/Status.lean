import Watchtower.Fault

/-!
# Where a dispute game stands

A contract keeps the status as an octet: 0 in progress, 1 won by a challenger, 2 by the defender.
Times are seconds since 1970 and durations seconds; a sum stops at the largest time. A challenge is
in time up to and including the deadline.

* `Status` : in progress, or won by one of the two sides;
* `Window` : when a game can be challenged, and when it can be resolved.
-/

namespace Watchtower.Game

inductive Status
  | inProgress
  | challengerWins
  | defenderWins
  deriving DecidableEq, Inhabited

namespace Status

def value : Status → Nat
  | .inProgress => 0
  | .challengerWins => 1
  | .defenderWins => 2

def ofValue (value : Nat) : Except Fault Status :=
  match value with
  | 0 => .ok .inProgress
  | 1 => .ok .challengerWins
  | 2 => .ok .defenderWins
  | _ => .error (Cause.invalidStatus value)

def text : Status → String
  | .inProgress => "In Progress"
  | .challengerWins => "Challenger Won"
  | .defenderWins => "Defender Won"

end Status

structure Window where
  createdAt : UInt64
  /-- How long after creation a fault may be signalled. -/
  detectDuration : UInt64
  /-- How long after creation the game's clock runs out. -/
  clockDuration : UInt64
  deriving DecidableEq

namespace Window

/-- The last second at which a challenge is accepted. -/
def deadline (w : Window) : UInt64 := satAdd w.createdAt w.detectDuration

def hasPassed (w : Window) (now : UInt64) : Bool := w.deadline < now

/-- The first second at which the game may be resolved. -/
def resolvableAt (w : Window) : UInt64 := satAdd w.createdAt w.clockDuration

def isResolvable (w : Window) (now : UInt64) : Bool := w.resolvableAt ≤ now

end Window

end Watchtower.Game
