import Watchtower.Proofs.Composition
import Watchtower.Proofs.Loading

/-!
# The caches that come up

* `Use x` : `x` is work that the cache is used in: a load by itself, or the inspector's;
* `Reachable γ good cache` : a fresh cache of any capacity becomes `cache` by such work, on games
  named by `γ`, while the node serves good outputs. All else in the surroundings may do as it likes,
  and the work may fail;
* `Reachable.holds` : then all that is cached is good.
-/

namespace Watchtower

open Work OutputCache

variable {γ : Type} {good : UInt64 → Rollup.Output → Prop}

/-- Work that the cache is used in. -/
inductive Use : {α : Type} → Work γ α → Prop
  | loadOne (block : UInt64) : Use (loadOne block)
  | loadRange (rounds : Nat) (range : Game.Range) : Use (loadRange rounds range)
  | load (rounds : Nat) (first last : UInt64) : Use (load rounds first last)
  | inspect (i : Inspector γ) : Use i.inspect
  | act (i : Inspector γ) : Use i.act

inductive Reachable (γ : Type) (good : UInt64 → Rollup.Output → Prop) : OutputCache → Prop
  | fresh {capacity : Nat} {stride : UInt64} {cache : OutputCache}
      (h : OutputCache.of capacity stride = .ok cache) : Reachable γ good cache
  | used {α : Type} {x : Work γ α} {cache cache' : OutputCache} {trace : List (Exchange (Watch γ))}
      {result : Except Fault α} (before : Reachable γ good cache) (use : Use x)
      (run : (x cache).Yields trace (result, cache'))
      (served : ∀ e ∈ trace, Serves good e.ask e.reply) : Reachable γ good cache'

/-! ## Every use keeps the cache good -/

section
variable {rely : (Watch γ).Rely} {inv : OutputCache → Prop}
  (hone : ∀ block, (loadOne block).Keeps rely inv)
  (hrange : ∀ rounds range, (loadRange rounds range).Keeps rely inv)
include hrange

theorem keeps_load (rounds : Nat) (first last : UInt64) : (load rounds first last).Keeps rely inv := by
  unfold load
  split
  · exact keeps_pure []
  · refine Keeps.bind (fun cache hc => hc) fun cache => ?_
    exact (keeps_ofExcept _).bind fun range => hrange rounds range

include hone

/-- The loads are all that the cache is used by. -/
theorem keeps_use {α : Type} {x : Work γ α} (h : Use x) : x.Keeps rely inv := by
  cases h with
  | loadOne block => exact hone block
  | loadRange rounds range => exact hrange rounds range
  | load rounds first last => exact keeps_load hrange rounds first last
  | inspect i =>
    exact composes_keeps.inspect (hone _) (hrange _ _) fun index =>
      keeps_read i.game (.challenged index)
  | act i =>
    refine composes_keeps.act hone hrange
      (fun game index => keeps_read game (.challenged index)) ?_ i
    exact fun index => keeps_ask (.notify (.windowMissed index))

end

section
variable (numbered : ∀ block output, good block output → output.number = block)
include numbered

theorem keeps_loadOne (block : UInt64) :
    (loadOne block).Keeps (Serves (γ := γ) good) (Holds good) :=
  fun _ hc => (upholds_loadOne numbered block hc).imp fun _ _ h => h.1

theorem keeps_loadRange (rounds : Nat) (range : Game.Range) :
    (loadRange rounds range).Keeps (Serves (γ := γ) good) (Holds good) :=
  fun _ hc => (upholds_loadRange numbered rounds range hc).imp fun _ _ h => h.1

theorem keeps_of_use {α : Type} {x : Work γ α} (h : Use x) :
    x.Keeps (Serves good) (Holds good) :=
  keeps_use (keeps_loadOne numbered) (keeps_loadRange numbered) h

/-- Whatever a cache was used in, all that it holds came from a good node. -/
theorem Reachable.holds {cache : OutputCache} (h : Reachable γ good cache) : cache.Holds good := by
  induction h with
  | fresh h => exact holds_of h
  | used _ use run served ih => exact Program.Meets.of_yields (keeps_of_use numbered use _ ih) run served

end

end Watchtower
