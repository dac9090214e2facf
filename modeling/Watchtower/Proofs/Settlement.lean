import Watchtower.Proofs.Finding
import Watchtower.Proofs.Submissions

/-!
# When open challenges are settled

* `i.opening` : how a tick begins in which they can be: the node is in sync, the game is in
  progress, no challenge has succeeded, and `resolveClaim` would go through;
* `resolveClaim_submitted_iff` : the settlement is submitted exactly if the rest of the inspection
  does not fail. If it does, at any question and for any reason, nothing is; a read that has nothing
  to do with it is enough (`resolveClaim_lost`).
-/

namespace Watchtower

open Work

section
variable {γ : Type} {i : Inspector γ} {cache c : OutputCache}

/-- The exchanges with which a tick begins in which `resolveClaim` would go through. -/
def Inspector.opening (i : Inspector γ) : List (Exchange (Watch γ)) :=
  [⟨.validate i.head, .ok ()⟩, ⟨.read i.game .status, .ok .inProgress⟩,
    ⟨.read i.game .challengeSuccess, .ok false⟩, ⟨.read i.game .canResolveClaim, .ok true⟩]

/-- An inspection that begins in this way and comes to actions, comes to the settlement among
them. -/
theorem resolveClaim_mem {actions : List Game.Action} {acting after rest : List (Exchange (Watch γ))}
    (hact : i.act.Yields cache acting (.ok actions) c)
    (hopening : ⟨.validate i.head, .ok ()⟩ :: (acting ++ after) = i.opening ++ rest) :
    .resolveClaim ∈ actions := by
  obtain ⟨status, trace, rfl, hgoes⟩ := yields_read_bind_ok_iff.mp hact
  obtain ⟨hstatus, hafter⟩ := List.cons.inj (List.cons.inj hopening).2
  obtain rfl := Except.ok.inj (Exchange.reply_inj hstatus)
  obtain ⟨succeeded, trace, rfl, hsettles⟩ := yields_read_bind_ok_iff.mp hgoes
  obtain ⟨hsucceeded, hlast⟩ := List.cons.inj hafter
  obtain rfl := Except.ok.inj (Exchange.reply_inj hsucceeded)
  obtain ⟨settling, c₁, first, second, rfl, hsettling, hends⟩ := yields_bind_ok_iff.mp hsettles
  replace hsettling : (read i.game .canResolveClaim >>= fun settles =>
      pure (if settles then [Game.Action.resolveClaim] else [])).Yields cache first (.ok settling) c₁ :=
    hsettling
  obtain ⟨settles, trace, rfl, hsettled⟩ := yields_read_bind_ok_iff.mp hsettling
  obtain ⟨hcan, -⟩ := List.cons.inj hlast
  obtain rfl := Except.ok.inj (Exchange.reply_inj hcan)
  obtain ⟨rfl, hvalue, rfl⟩ := yields_pure_iff.mp hsettled
  obtain rfl := Except.ok.inj hvalue
  obtain ⟨ends, c₂, first, second, rfl, -, hrest⟩ := yields_bind_ok_iff.mp hends
  cases ends with
  | true =>
    obtain ⟨rfl, hactions, rfl⟩ := yields_pure_iff.mp hrest
    obtain rfl := Except.ok.inj hactions
    exact List.mem_cons_self
  | false =>
    obtain ⟨signalled, c₃, first, second, rfl, -, hsignalled⟩ := yields_bind_ok_iff.mp hrest
    obtain ⟨rfl, hactions, rfl⟩ := yields_pure_iff.mp hsignalled
    obtain rfl := Except.ok.inj hactions
    exact List.mem_cons_self

/-- In a tick that begins with the settlement to be made, it is submitted exactly if the inspector
does not fail at a later question. If it fails, nothing is submitted at all. -/
theorem resolveClaim_submitted_iff {w w' : Watcher γ} {rest : List (Exchange (Watch γ))}
    (hactive : w.active = some (i, cache)) (h : w.tick.Yields (i.opening ++ rest) w') :
    ((w.address, .resolveClaim) ∈ submissions rest ↔ failures rest = []) ∧
      (failures rest ≠ [] → submissions rest = []) := by
  have hpasses := Watcher.Passes.of_yields h
  have hsubmissions : submissions (i.opening ++ rest) = submissions rest := rfl
  have hfailures : failures (i.opening ++ rest) = failures rest := rfl
  rw [← hsubmissions, ← hfailures]
  clear h hsubmissions hfailures
  generalize htrace : i.opening ++ rest = trace at hpasses ⊢
  cases hpasses with
  | idle hidle => exact nomatch hactive.symm.trans hidle
  | behind hactive' =>
    obtain ⟨rfl, rfl⟩ := Prod.mk.inj (Option.some.inj (hactive'.symm.trans hactive))
    obtain ⟨hhead, -⟩ := List.cons.inj htrace
    cases hhead
  | failed _ hacting hfinish =>
    obtain ⟨hs, hf⟩ := Watcher.submissions_failed hacting hfinish
    rw [hs, hf]
    exact ⟨⟨fun hm => (nomatch hm), fun hne => (nomatch hne)⟩, fun _ => rfl⟩
  | acted hactive' hacting hsending hfinish =>
    obtain ⟨rfl, rfl⟩ := Prod.mk.inj (Option.some.inj (hactive'.symm.trans hactive))
    obtain ⟨hs, hf⟩ := Watcher.submissions_acted hacting hsending hfinish
    rw [hs, hf]
    refine ⟨⟨fun _ => rfl, fun _ => ?_⟩, fun hne => absurd rfl hne⟩
    exact List.mem_map_of_mem (resolveClaim_mem hacting htrace.symm)

end

namespace Sample

/-! ## A game to be settled -/

/-- The contract answers everything but the read of the root claim as it should. -/
def settling (rootClaim : Except Fault Hash) : Surroundings Unit Unit where
  chain game what := match what with
    | .rootClaim => rootClaim
    | .canResolveClaim => .ok true
    | what => chain .zero .zero game what
  clock := 5
  node := node

def watcher : Watcher Unit := ⟨(), .zero, .inProgress, some (inspector, cache)⟩

/-- The exchanges after the opening. -/
def later (rootClaim : Except Fault Hash) : List (Exchange (Watch Unit)) :=
  (watcher.tick.exchanges (settling rootClaim).answer ()).drop 4

theorem yields_later {rootClaim : Except Fault Hash} {w : Watcher Unit}
    (h : watcher.tick.run (settling rootClaim).answer () = some (w, ())) :
    watcher.tick.Yields (inspector.opening ++ later rootClaim) w :=
  Program.yields_of_run h

/-- The read of the root claim fails. -/
def unreadable : Except Fault Hash := .error (Cause.reported "connection refused")

theorem run_unreadable :
    watcher.tick.run (settling unreadable).answer () = some (watcher, ()) := rfl

end Sample

open Sample in
/-- The settlement is submitted beside a challenge, and not if the root claim cannot be read. -/
theorem resolveClaim_submitted_iff_sample :
    (Address.zero, .resolveClaim) ∈ submissions (later (.ok (.ofNat 8))) ∧
      submissions (later unreadable) = [] := by
  constructor
  · exact (resolveClaim_submitted_iff rfl (yields_later rfl)).1.mpr rfl
  · exact (resolveClaim_submitted_iff rfl (yields_later run_unreadable)).2 (List.cons_ne_nil _ _)

open Sample in
/-- The settlement is lost with a read that has nothing to do with it. -/
theorem resolveClaim_lost :
    ¬ ∀ (w w' : Watcher Unit) (i : Inspector Unit) (cache : OutputCache)
      (rest : List (Exchange (Watch Unit))), w.active = some (i, cache) →
      w.tick.Yields (i.opening ++ rest) w' →
      (w.address, .resolveClaim) ∈ submissions rest := by
  intro h
  exact nomatch h watcher watcher inspector cache _ rfl (yields_later run_unreadable)

end Watchtower
