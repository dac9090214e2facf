import Watchtower.Watch

/-!
# Requests that are repeated until they succeed

* `Backoff` : the least and the greatest delay between two attempts;
* `Backoff.next`, `Backoff.bases` : the base of each delay, doubled up to the greatest. The first
  one is the least delay as it is, even above the greatest. A delay is its base and a random part
  below it;
* `retry` : one request, repeated after each fault but a cancellation;
* `Program.retrying` : a program whose requests of a kind are all repeated so.
-/

namespace Watchtower

/-- Delays in milliseconds. -/
structure Backoff where
  least : Nat := 250
  greatest : Nat := 10000
  deriving DecidableEq

namespace Backoff

def next (b : Backoff) (base : Nat) : Nat :=
  min (if base < b.greatest then 2 * base else base) b.greatest

/-- The first `count` bases after and with `base`. -/
def basesFrom (b : Backoff) : Nat → Nat → List Nat
  | 0, _ => []
  | count + 1, base => base :: b.basesFrom count (b.next base)

def bases (b : Backoff) (count : Nat) : List Nat := b.basesFrom count b.least

end Backoff

/-- How often a request is repeated at most: more often than time allows. -/
def maxRepeats : Nat := UInt64.size - 1

variable {γ α : Type}

/-- Makes a request and repeats it up to `repeats` times. -/
def attempt (backoff : Backoff) (what : Fetch) :
    (repeats base : Nat) → Program (Watch γ) (Option (Except Fault what.Value))
  | repeats, base =>
    .ask (.fetch what) fun
      | none => .done none
      | some (.ok value) => .done (some (.ok value))
      | some (.error fault) =>
        if fault.isCancelled then .done (some (.error fault))
        else match repeats with
          | 0 => .done (some (.error fault))
          | repeats + 1 =>
            .ask (.notify (.fetchFailed what fault)) fun () =>
            .ask (.pause base base) fun
              | true => .done none
              | false => attempt backoff what repeats (backoff.next base)

/-- A request that is not even made once the signal to stop has been given. -/
def retry (backoff : Backoff) (what : Fetch) :
    Program (Watch γ) (Option (Except Fault what.Value)) :=
  .ask .stopping fun
    | true => .done (some (.error Cause.cancelled))
    | false => attempt backoff what maxRepeats backoff.least

/-- How `retrying` answers a question. -/
def retried (backoff : Backoff) (which : Fetch → Bool) :
    (q : Watch.Ask γ) → Program (Watch γ) (Watch.Reply γ q)
  | .fetch what => if which what then retry backoff what else Watch.ask (.fetch what)
  | q => Watch.ask q

/-- The same program, with the requests that `which` picks repeated until they succeed. -/
def Program.retrying (backoff : Backoff) (which : Fetch → Bool) (p : Program (Watch γ) α) :
    Program (Watch γ) α :=
  p.handle (retried backoff which)

end Watchtower
