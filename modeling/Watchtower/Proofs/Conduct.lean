import Watchtower.Proofs.Lifecycle

/-!
# How a tick is conducted

First the node is asked whether it is in sync. If so the inspector does its work, what it comes to
is acted on, and the status is read anew. No fault on the way keeps the tick from what comes next.

* `Attempts address actions trace` : the actions are submitted one after another, each once; one
  that fails is reported, and the next is submitted all the same;
* `Reacts address outcome trace` : what the inspector comes to is acted on: its actions are
  attempted, or its failure is reported;
* `yields_perform_iff`, `yields_actOnce_iff` : so it goes, and no other way;
* `tick_conducted` : the ways of a tick, whatever its questions are answered.
-/

namespace Watchtower

open Work Program Watcher

section
variable {γ : Type} {w w' : Watcher γ} {i : Inspector γ} {cache c : OutputCache} {address : Address}
  {actions : List Game.Action} {outcome : Except Fault (List Game.Action)}
  {trace : List (Exchange (Watch γ))} {rely : (Watch γ).Rely}

namespace Watcher

/-! ## After the work of the inspector -/

inductive Attempts (address : Address) : List Game.Action → List (Exchange (Watch γ)) → Prop
  | nil : Attempts address [] []
  | taken {action : Game.Action} {actions : List Game.Action} {trace : List (Exchange (Watch γ))}
      (h : Attempts address actions trace) :
      Attempts address (action :: actions) (⟨.submit address action, .ok ()⟩ :: trace)
  | failed {action : Game.Action} {actions : List Game.Action} {trace : List (Exchange (Watch γ))}
      (fault : Fault) (h : Attempts address actions trace) :
      Attempts address (action :: actions) (⟨.submit address action, .error fault⟩ ::
        ⟨.notify (.submissionFailed action fault), ()⟩ :: trace)

theorem yields_perform_iff :
    (perform (γ := γ) address actions).Yields trace () ↔ Attempts address actions trace := by
  constructor
  · intro h
    induction actions generalizing trace with
    | nil =>
      obtain ⟨rfl, -⟩ := yields_done_iff.mp h
      exact .nil
    | cons action actions ih =>
      obtain ⟨reply, rest, rfl, hrest⟩ := yields_ask_bind_iff.mp h
      clear h
      cases reply with
      | ok _ => exact .taken (ih hrest)
      | error fault =>
        obtain ⟨_, rest, rfl, hnext⟩ := yields_ask_bind_iff.mp hrest
        exact .failed fault (ih hnext)
  · intro h
    induction h with
    | nil => exact .done ()
    | taken _ ih => exact .ask ih
    | failed fault _ ih => exact .ask (.ask ih)

inductive Reacts (address : Address) :
    Except Fault (List Game.Action) → List (Exchange (Watch γ)) → Prop
  | reported (fault : Fault) :
      Reacts address (.error fault) [⟨.notify (.inspectionFailed fault), ()⟩]
  | attempted {actions : List Game.Action} {trace : List (Exchange (Watch γ))}
      (h : Attempts address actions trace) : Reacts address (.ok actions) trace

theorem yields_actOnce_iff : (actOnce address i cache).Yields trace c ↔
    ∃ outcome acting reacting, trace = acting ++ reacting ∧
      i.act.Yields cache acting outcome c ∧ Reacts address outcome reacting := by
  unfold actOnce
  rw [Program.yields_bind_iff]
  constructor
  · rintro ⟨⟨fault | actions, c'⟩, acting, reacting, rfl, hacting, hreacting⟩
    · obtain ⟨_, _, rfl, hdone⟩ := yields_ask_bind_iff.mp hreacting
      obtain ⟨rfl, rfl⟩ := yields_done_iff.mp hdone
      exact ⟨.error fault, acting, _, rfl, hacting, .reported fault⟩
    · obtain ⟨_, sending, _, rfl, hsending, hdone⟩ := Program.yields_bind_iff.mp hreacting
      obtain ⟨rfl, rfl⟩ := yields_done_iff.mp hdone
      rw [List.append_nil]
      have hattempts := yields_perform_iff.mp hsending
      exact ⟨.ok actions, acting, sending, rfl, hacting, .attempted hattempts⟩
  · rintro ⟨outcome, acting, reacting, rfl, hacting, hreacts⟩
    refine ⟨(outcome, c), acting, reacting, rfl, hacting, ?_⟩
    cases hreacts with
    | reported fault => exact .ask (.done c)
    | attempted h =>
      exact Program.yields_bind_iff.mpr
        ⟨(), reacting, [], (List.append_nil _).symm, yields_perform_iff.mpr h, .done c⟩

/-- The actions that the inspector came to, if it did not fail. -/
def actionsOf : Except Fault (List Game.Action) → List Game.Action
  | .ok actions => actions
  | .error _ => []

theorem Attempts.submissions (h : Attempts (γ := γ) address actions trace) :
    submissions trace = actions.map fun action => (address, action) :=
  (submissions_perform (yields_perform_iff.mpr h)).1

theorem Reacts.submissions (h : Reacts (γ := γ) address outcome trace) :
    submissions trace = (actionsOf outcome).map fun action => (address, action) := by
  cases h with
  | reported fault => rfl
  | attempted h => exact h.submissions

/-- What is asked in order to act, but for the work of the inspector. -/
def OfReaction : Watch.Ask γ → Prop
  | .submit .. | .notify _ => True
  | _ => False

theorem Attempts.asks (h : Attempts (γ := γ) address actions trace) :
    ∀ e ∈ trace, OfReaction e.ask := by
  induction h with
  | nil => exact fun _ he => absurd he List.not_mem_nil
  | taken _ ih => exact List.forall_mem_cons.mpr ⟨trivial, ih⟩
  | failed fault _ ih =>
    exact List.forall_mem_cons.mpr ⟨trivial, List.forall_mem_cons.mpr ⟨trivial, ih⟩⟩

theorem Reacts.asks (h : Reacts (γ := γ) address outcome trace) :
    ∀ e ∈ trace, OfReaction e.ask := by
  cases h with
  | reported fault =>
    intro e he
    obtain rfl := List.mem_singleton.mp he
    trivial
  | attempted h => exact h.asks

/-! ## A tick comes to its end -/

theorem ends_perform (address : Address) (actions : List Game.Action) :
    (perform (γ := γ) address actions).Meets rely (· ≠ none) := by
  induction actions with
  | nil => exact Option.some_ne_none _
  | cons action actions ih =>
    rintro (fault | _) -
    · exact fun _ _ => ih
    · exact ih

theorem ends_actOnce (h : (i.act cache).Meets rely (· ≠ none)) :
    (actOnce address i cache).Meets rely (· ≠ none) := by
  refine meets_bind_iff.mpr (h.imp ?_)
  rintro (_ | ⟨fault | actions, c⟩) hne
  · exact absurd rfl hne
  · exact fun _ _ => Option.some_ne_none _
  · refine meets_bind_iff.mpr ((ends_perform address actions).imp ?_)
    rintro (_ | _) hne
    · exact absurd rfl hne
    · exact Option.some_ne_none _

theorem ends_conclude (w : Watcher γ) (i : Inspector γ) (c : OutputCache) :
    (w.conclude i c).Meets rely (· ≠ none) := by
  rintro (fault | status) -
  · exact fun _ _ => Option.some_ne_none _
  · cases status with
    | inProgress =>
      rintro (fault | count) -
      · exact fun _ _ => Option.some_ne_none _
      · exact Option.some_ne_none _
    | challengerWins => exact Option.some_ne_none _
    | defenderWins => exact Option.some_ne_none _

theorem ends_progress (hactive : w.active = some (i, cache))
    (h : (i.act cache).Meets rely (· ≠ none)) : w.progress.Meets rely (· ≠ none) := by
  unfold progress
  rw [hactive]
  rintro (fault | _) -
  · exact fun _ _ => Option.some_ne_none _
  · change (actOnce w.address i cache >>= fun c => w.conclude i c).Meets rely (· ≠ none)
    refine meets_bind_iff.mpr ((ends_actOnce h).imp ?_)
    rintro (_ | c) hne
    · exact absurd rfl hne
    · exact ends_conclude w i c

end Watcher

/-! ## Whole ticks -/

theorem isNotInSync_iff (fault : Fault) :
    fault.isNotInSync = true ↔ ∃ head current, fault.cause = .notInSync head current := by
  unfold Fault.isNotInSync
  constructor
  · intro h
    split at h
    · next head current hcause => exact ⟨head, current, hcause⟩
    · exact nomatch h
  · rintro ⟨head, current, hcause⟩
    rw [hcause]

/-- That the node is behind is to be expected now and then. -/
theorem level_of_unsynced (fault : Fault) :
    (if fault.isNotInSync then Notice.nodeBehind fault else .syncCheckFailed fault).level = .warn ↔
      ∃ head current, fault.cause = .notInSync head current := by
  rw [← isNotInSync_iff]
  split
  · next h => exact ⟨fun _ => h, fun _ => rfl⟩
  · next h => exact ⟨nofun, fun h' => absurd h' h⟩

/-- A tick that begins with a node in sync. -/
theorem conducted_of_acts {acting ending : List (Exchange (Watch γ))} {status : Game.Status}
    (hact : (actOnce w.address i cache).Yields acting c)
    (hend : (w.conclude i c).Yields ending (status, w')) :
    ∃ outcome acting' reacting known after,
      acting ++ ending =
        acting' ++ (reacting ++ ⟨.read w.game .status, known⟩ :: after) ∧
      i.act.Yields cache acting' outcome c ∧ Reacts w.address outcome reacting ∧
      submissions (acting ++ ending) = (actionsOf outcome).map (fun action => (w.address, action)) ∧
      (∀ e ∈ reacting ++ after, e.ask ≠ .read w.game .status) ∧
      status = known.toOption.getD w.status ∧ w'.status = status := by
  obtain ⟨outcome, acting, reacting, rfl, hacting, hreacts⟩ := yields_actOnce_iff.mp hact
  have hsilent := nil_of_silent fun e he =>
    silent_of_ofFinish e.ask ((asks_conclude w i c).of_yields hend e he)
  obtain ⟨known, after, rfl, hafter, hstatus, hkept⟩ := concluded_once hend
  refine ⟨outcome, acting, reacting, known, after, List.append_assoc .., hacting, hreacts, ?_, ?_,
    hstatus, hkept⟩
  · rw [submissions_append, submissions_append, hreacts.submissions, hsilent.1,
      (nil_of_silent ((silent_act i).of_yields hacting)).1, List.nil_append, List.append_nil]
  · intro e he
    rcases List.mem_append.mp he with he | he
    · intro hread
      have hasked := hreacts.asks e he
      rw [hread] at hasked
      exact hasked
    · exact hafter e he

/-- A watcher is made and lives on, and its game is in progress. Then its tick ends if the inspector
does. If the node turns out not to be in sync, or cannot be asked, nothing else is asked, and one
notice says so: a warning if the cause is that the node is behind, else an error. If the node is in
sync, what the inspector comes to is submitted, each action once and in order, whatever becomes of
it, and nothing if the inspector fails; then the status is read, once. -/
theorem tick_conducted {settings : Settings} {game : γ} {address : Address} {w₀ : Watcher γ}
    {making : List (Exchange (Watch γ))} {calls : List (Call γ)}
    (hmade : (Watcher.of settings game address).Yields making (.ok w₀)) (hlives : Lives w₀ calls w)
    (hgoes : w.status = .inProgress) :
    ∃ i cache, w.active = some (i, cache) ∧
      (∀ rely : (Watch γ).Rely, (i.act cache).Meets rely (· ≠ none) →
        w.progress.Meets rely (· ≠ none)) ∧
      ∀ trace status w', w.progress.Yields trace (status, w') →
        (∃ fault notice, trace = [⟨.validate i.head, .error fault⟩, ⟨.notify notice, ()⟩] ∧
          (notice.level = .warn ↔ ∃ head current, fault.cause = .notInSync head current) ∧
          status = w.status ∧ w' = w) ∨
        ∃ outcome acting c reacting known after,
          trace = ⟨.validate i.head, .ok ()⟩ ::
            (acting ++ (reacting ++ ⟨.read w.game .status, known⟩ :: after)) ∧
          i.act.Yields cache acting outcome c ∧ Reacts w.address outcome reacting ∧
          submissions trace = (actionsOf outcome).map (fun action => (w.address, action)) ∧
          (∀ e ∈ reacting ++ after, e.ask ≠ .read w.game .status) ∧
          status = known.toOption.getD w.status ∧ w'.status = status := by
  obtain ⟨-, hsound₀, -⟩ := made_sound hmade
  obtain ⟨-, hsound, -⟩ := hlives.follows hsound₀
  obtain ⟨⟨i, cache⟩, hactive⟩ := Option.isSome_iff_exists.mp (hsound.mpr hgoes)
  refine ⟨i, cache, hactive, fun rely => ends_progress hactive, fun trace status w' h => ?_⟩
  cases Advances.of_yields h with
  | idle hidle => exact nomatch hactive.symm.trans hidle
  | @behind _ _ fault hactive' =>
    obtain ⟨rfl, rfl⟩ := Prod.mk.inj (Option.some.inj (hactive'.symm.trans hactive))
    exact .inl ⟨fault, _, rfl, level_of_unsynced fault, rfl, rfl⟩
  | acts hactive' hact hend =>
    obtain ⟨rfl, rfl⟩ := Prod.mk.inj (Option.some.inj (hactive'.symm.trans hactive))
    obtain ⟨outcome, acting, reacting, known, after, htrace, h⟩ := conducted_of_acts hact hend
    exact .inr ⟨outcome, acting, _, reacting, known, after, congrArg _ htrace, h⟩

end

namespace Sample

/-! ## A tick with a submission that fails -/

/-- The game is to be settled and ended, and no settlement is taken. -/
def obstructed : Surroundings Unit Unit where
  chain game what := match what with
    | .canResolveClaim | .canResolve => .ok true
    | what => chain .zero .zero game what
  clock := 120
  node
    | .submit _ .resolveClaim, s => (.error (Cause.reported "nonce too low"), s)
    | q, s => node q s

def obstructedTick : List (Exchange (Watch Unit)) := watcher.progress.exchanges obstructed.answer ()

theorem yields_obstructedTick : watcher.progress.Yields obstructedTick (.inProgress, watcher) :=
  Program.yields_of_run
    (show watcher.progress.run obstructed.answer () = some ((.inProgress, watcher), ()) from rfl)

end Sample

open Sample in
/-- The game is to be ended all the same, and the status is read after that. -/
theorem tick_conducted_sample : ∃ acting reacting known after,
    obstructedTick = ⟨.validate ⟨.zero, 0⟩, .ok ()⟩ ::
      (acting ++ (reacting ++ ⟨.read () .status, known⟩ :: after)) ∧
    submissions obstructedTick = [(.zero, .resolveClaim), (.zero, .resolve)] ∧
    ∀ e ∈ reacting ++ after, e.ask ≠ .read () .status := by
  obtain ⟨i, cache, hactive, -, hways⟩ := tick_conducted made_watcher (.nil watcher) rfl
  obtain ⟨rfl, rfl⟩ := Prod.mk.inj (Option.some.inj hactive)
  rcases hways _ _ _ yields_obstructedTick with
    ⟨fault, notice, htrace, -⟩ | ⟨_, acting, _, reacting, known, after, htrace, -, -, -, honce, -⟩
  · exact nomatch Exchange.reply_inj (List.cons.inj htrace).1
  · exact ⟨acting, reacting, known, after, htrace, rfl, honce⟩

end Watchtower
