import Watchtower.Proofs.Positions
import Watchtower.Proofs.Triple
import Watchtower.Watcher

/-!
# What a watcher starts with

* `Equipped rely settings game i cache` : the inspector `i` and its cache are made of what was read
  of the game, each answer one that the rely allows;
* `upholds_equip`, `meets_of` : so they are, of every watcher of a game in progress.
-/

namespace Watchtower

open Work

variable {γ : Type} {rely : (Watch γ).Rely} {settings : Settings} {game : γ} {address : Address}

structure Equipped (rely : (Watch γ).Rely) (settings : Settings) (game : γ) (i : Inspector γ)
    (cache : OutputCache) : Prop where
  watches : i.game = game
  rounds : i.rounds = settings.rounds
  head : ∃ hash header, rely (.read game .l1Head) (.ok hash) ∧
    rely (.fetch (.header hash)) (some (.ok header)) ∧ L1.Head.ofHeader header = .ok i.head
  /-- The stride is the game's own, if it says one. -/
  range : ∃ first last distance, rely (.read game .blockRange) (.ok (first, last)) ∧
    rely (.read game .blockDistance) (.ok distance) ∧
    Game.Range.of first last (if distance = 0 then settings.defaultStride else distance) =
      .ok i.range
  cache : OutputCache.of settings.cacheSize i.range.stride = .ok cache

namespace Watcher

theorem upholds_equip (cache : OutputCache) :
    (equip settings game).Upholds rely cache fun r _ =>
      IfValue (fun (i, fresh) => Equipped rely settings game i fresh) r := by
  refine upholds_read_bind fun hash hhash => ?_
  refine Upholds.bind (upholds_fetch fun reply hheader => ?_)
  rcases reply with _ | _ | header
  · trivial
  · trivial
  refine upholds_ofExcept_bind fun head hhead => ?_
  refine upholds_read_bind fun createdAt _ => ?_
  refine upholds_read_bind fun detectDuration _ => ?_
  refine upholds_read_bind fun clockDuration _ => ?_
  refine upholds_read_bind fun distance hdistance => ?_
  refine upholds_read_bind fun (first, last) hbounds => ?_
  refine upholds_ofExcept_bind fun range hrange => ?_
  refine upholds_ofExcept_bind fun fresh hfresh => ?_
  obtain ⟨-, -, hstride⟩ := Game.Range.of_eq_ok_iff.mp hrange
  rw [← hstride] at hfresh
  exact upholds_pure
    { watches := rfl, rounds := rfl, cache := hfresh
      head := ⟨hash, header, hhash, hheader, hhead⟩
      range := ⟨first, last, distance, hbounds, hdistance, hrange⟩ }

/-- A watcher is one of the game, and what it watches with is made for the game, in progress. -/
theorem meets_of : (Watcher.of settings game address).Meets rely fun outcome =>
    ∀ w, outcome = some (.ok w) → w.game = game ∧ w.address = address ∧
      ∀ i cache, w.active = some (i, cache) →
        rely (.read game .status) (.ok .inProgress) ∧ Equipped rely settings game i cache := by
  intro status hstatus
  cases status with
  | error fault => exact fun w hw => nomatch hw
  | ok status =>
  change Program.Meets rely _ (if status ≠ .inProgress then _ else _)
  split
  · intro w hw
    obtain rfl := Except.ok.inj (Option.some.inj hw)
    exact ⟨rfl, rfl, fun i cache h => nomatch h⟩
  · next hprogress =>
    obtain rfl := Classical.not_not.mp hprogress
    rw [Program.meets_bind_iff]
    refine Program.Meets.imp (upholds_equip _) ?_
    rintro (_ | ⟨fault | ⟨i, fresh⟩, c⟩) hequipped w hw
    · cases hw
    · cases hw
    · obtain rfl := Except.ok.inj (Option.some.inj hw)
      refine ⟨rfl, rfl, fun i' cache h => ?_⟩
      obtain ⟨rfl, rfl⟩ := Prod.mk.inj (Option.some.inj h)
      exact ⟨hstatus, hequipped⟩

end Watcher

end Watchtower
