import Watchtower.Recency
import Watchtower.Watch

/-!
# Work on a game: programs that can fail and keep a cache of outputs

* `OutputCache` : outputs by block number, and the stride of the ranges it serves;
* `Work γ α` : from a cache to a program that ends in a value or a fault, and in a cache. What was
  cached before a fault stays cached;
* `Work.fail`, `Work.ofExcept`, `Work.ask`, `Work.read`, `Work.fetch`, `Work.notify`, `Work.within`,
  `Work.stuck` : the ways to build it;
* `Work.bind_apply` : how a sequence runs; `Work.bind_assoc` : how it is nested does not matter.
-/

namespace Watchtower

structure OutputCache where
  stride : UInt64
  table : Recency UInt64 Rollup.Output

/-- An empty cache. A zero capacity is refused before a zero stride is. -/
def OutputCache.of (capacity : Nat) (stride : UInt64) : Except Fault OutputCache :=
  if capacity = 0 then .error (Cause.invalidConfig .zeroCapacity)
  else if stride = 0 then .error (Cause.invalidConfig .zeroCacheStride)
  else .ok ⟨stride, .empty capacity⟩

def Work (γ α : Type) : Type := OutputCache → Program (Watch γ) (Except Fault α × OutputCache)

namespace Work

variable {γ α β : Type}

def bind (x : Work γ α) (f : α → Work γ β) : Work γ β := fun cache =>
  x cache >>= fun
    | (.ok a, cache) => f a cache
    | (.error fault, cache) => .done (.error fault, cache)

instance : Monad (Work γ) where
  pure a := fun cache => .done (.ok a, cache)
  bind := bind

def fail (fault : Fault) : Work γ α := fun cache => .done (.error fault, cache)

def ofExcept : Except Fault α → Work γ α
  | .ok a => pure a
  | .error fault => fail fault

/-- A question that cannot fail. -/
def ask (q : Watch.Ask γ) : Work γ (Watch.Reply γ q) := fun cache =>
  .ask q fun reply => .done (.ok reply, cache)

def notify (notice : Notice) : Work γ Unit := ask (.notify notice)

/-- A value of a game's contract. -/
def read (game : γ) (what : Read) : Work γ (what.Value γ) := do
  ofExcept (← ask (.read game what))

/-- Chain data; a request cut short by the signal to stop fails as cancelled. -/
def fetch (what : Fetch) : Work γ what.Value := do
  match ← ask (.fetch what) with
  | none => fail Cause.cancelled
  | some result => ofExcept result

/-- The same work, its fault seen from a context. -/
def within (context : Context) (x : Work γ α) : Work γ α := fun cache =>
  x cache >>= fun (result, cache) => .done (inContext context result, cache)

/-- Never returns. -/
def stuck : Work γ α := fun _ => .stuck

def getCache : Work γ OutputCache := fun cache => .done (.ok cache, cache)

def setCache (cache : OutputCache) : Work γ Unit := fun _ => .done (.ok (), cache)

theorem bind_apply (x : Work γ α) (f : α → Work γ β) (cache : OutputCache) :
    (x >>= f) cache = (x cache >>= fun
      | (.ok a, cache) => f a cache
      | (.error fault, cache) => .done (.error fault, cache)) := rfl

theorem bind_assoc {δ : Type} (x : Work γ α) (f : α → Work γ β) (g : β → Work γ δ) :
    (x >>= f) >>= g = x >>= fun a => f a >>= g := by
  funext cache
  simp only [bind_apply, Program.bind_assoc]
  congr 1
  funext (result, cache)
  cases result <;> rfl

@[simp] theorem pure_apply (a : α) (cache : OutputCache) :
    (pure a : Work γ α) cache = .done (.ok a, cache) := rfl

end Work

end Watchtower
