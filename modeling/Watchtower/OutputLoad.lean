import Watchtower.Game.Range
import Watchtower.Work

/-!
# Loading outputs through the cache

* `loadOne` : one output; a fault of the node is returned;
* `loadRange` : the outputs at all positions of a range, ascending. What is missing is fetched in
  one batch, which is asked for again every second until it comes: to give up would be to miss a
  fault. The only fault is that the watcher was told to stop;
* `load` : the same from a first to a last block, with the cache's own stride; nothing if they are
  inverted.

The node is not trusted to answer what it was asked: of a batch, each requested block is taken
once, and all else is dropped with a warning. No request starts after the signal to stop.
-/

namespace Watchtower

open Work

variable {γ : Type}

namespace OutputCache

/-- The output cached for a block, which becomes the most recently used. -/
def lookup (block : UInt64) : Work γ (Option Rollup.Output) := do
  let cache ← getCache
  let (found, table) := cache.table.get? block
  setCache { cache with table }
  return found

/-- Caches an output under the number that it carries. -/
def store (output : Rollup.Output) : Work γ Unit := do
  let cache ← getCache
  setCache { cache with table := cache.table.insert output.number output }

/-- Fails if the signal to stop has been given. -/
def checkpoint : Work γ Unit := do
  if ← ask .stopping then fail Cause.cancelled

def loadOne (block : UInt64) : Work γ Rollup.Output := do
  match ← lookup block with
  | some output => return output
  | none =>
    checkpoint
    let output ← fetch (.output block)
    store output
    return output

/-- What is cached of `blocks`, and the blocks that are not. -/
def lookupAll : List UInt64 → Work γ (List Rollup.Output × List UInt64)
  | [] => return ([], [])
  | block :: blocks => do
    let found ← lookup block
    let (hits, missing) ← lookupAll blocks
    match found with
    | some output => return (output :: hits, missing)
    | none => return (hits, block :: missing)

/-- How long to wait before a batch is asked for again, in milliseconds. -/
def batchRetryDelay : Nat := 1000

/-- A batch of outputs, asked for until it comes, at most `rounds` times. -/
def fetchBatch (blocks : List UInt64) : (rounds : Nat) → Work γ (List Rollup.Output)
  | 0 => stuck
  | rounds + 1 => do
    checkpoint
    match ← ask (.fetch (.outputs blocks)) with
    | none => fail Cause.cancelled
    | some (.ok outputs) => return outputs
    | some (.error fault) =>
      notify (.batchFailed fault)
      checkpoint
      if ← ask (.pause batchRetryDelay 0) then fail Cause.cancelled
      fetchBatch blocks rounds

/-- Caches and returns the outputs for `requested` blocks, each block once. -/
def accept : (requested : List UInt64) → List Rollup.Output → Work γ (List Rollup.Output)
  | _, [] => return []
  | requested, output :: outputs => do
    if output.number ∈ requested then
      store output
      return output :: (← accept (requested.erase output.number) outputs)
    else
      notify .outputDropped
      accept requested outputs

/-- The outputs in ascending order of their blocks. -/
def ascending (outputs : List Rollup.Output) : List Rollup.Output :=
  outputs.mergeSort fun a b => a.number ≤ b.number

/-- The outputs for `missing` blocks; nothing is asked if there are none. -/
def loadMissing (rounds : Nat) (missing : List UInt64) : Work γ (List Rollup.Output) := do
  if missing.isEmpty then return []
  accept missing (← fetchBatch missing rounds)

/-- The outputs of a range in order, with a warning if there are not as many as positions. -/
def arrange (range : Game.Range) (outputs : List Rollup.Output) : Work γ (List Rollup.Output) := do
  if outputs.length ≠ range.positionCount then
    notify .outputsMissing
  return ascending outputs

def loadRange (rounds : Nat) (range : Game.Range) : Work γ (List Rollup.Output) := do
  let (hits, missing) ← lookupAll range.positions
  let fetched ← loadMissing rounds missing
  arrange range (hits ++ fetched)

def load (rounds : Nat) (first last : UInt64) : Work γ (List Rollup.Output) := do
  if last < first then return []
  let range ← ofExcept (Game.Range.of first last (← getCache).stride)
  loadRange rounds range

end OutputCache

end Watchtower
