import Watchtower.Proofs.Repeating
import Watchtower.Proofs.Transparency

/-!
# The signal to stop ends all traffic with the node

* `p.encounters answer s` : the questions of a run, each with the state that it finds, and
  `p.final answer s` : the state that the run leaves, even if it gets stuck;
* `Announces answer given` : the signal lasts once it is given, and a question about it, or a pause,
  ends with what is so then;
* `p.Heeds answer given s` : no request is made once the signal is given, and then the run ends. A
  request that is repeated heeds the signal (`heeds_retry`), and so do work that does nothing and a
  sequence (`sequences_heeds`), hence the loads (`heeds_loadRange`) and demands on a cache
  (`Demand.heeds_work`).
-/

namespace Watchtower

open Work OutputCache

namespace Program

variable {I J : Interface} {α β σ : Type} {answer : ∀ q : I.Ask, σ → I.Reply q × σ}

/-! ## What a run meets on its way -/

/-- The questions of a run, each with the state that it finds. -/
def encounters (answer : ∀ q : I.Ask, σ → I.Reply q × σ) : Program I α → σ → List (I.Ask × σ)
  | done _, _ => []
  | ask q next, s =>
    (q, s) :: (next (answer q s).1).encounters answer (answer q s).2
  | stuck, _ => []

/-- The state that a run leaves behind, even if it gets stuck. -/
def final (answer : ∀ q : I.Ask, σ → I.Reply q × σ) : Program I α → σ → σ
  | done _, s => s
  | ask q next, s => (next (answer q s).1).final answer (answer q s).2
  | stuck, s => s

theorem encounters_bind (p : Program I α) (f : α → Program I β) (s : σ) :
    (p >>= f).encounters answer s = p.encounters answer s ++
      match p.run answer s with
      | some (a, t) => (f a).encounters answer t
      | none => [] := by
  induction p generalizing s with
  | done a => rfl
  | ask q next ih => exact congrArg _ (ih _ _)
  | stuck => rfl

theorem final_bind (p : Program I α) (f : α → Program I β) (s : σ) :
    (p >>= f).final answer s =
      match p.run answer s with
      | some (a, t) => (f a).final answer t
      | none => p.final answer s := by
  induction p generalizing s with
  | done a => rfl
  | ask q next ih => exact ih _ _
  | stuck => rfl

/-- Each question of a run is met once. -/
theorem map_fst_encounters (p : Program I α) (s : σ) :
    (p.encounters answer s).map Prod.fst = (p.exchanges answer s).map Exchange.ask := by
  induction p generalizing s with
  | done a => rfl
  | ask q next ih => exact congrArg (q :: ·) (ih _ _)
  | stuck => rfl

/-- What lasts is so at every question, if it is so at the start. -/
theorem of_mem_encounters {inv : σ → Prop} (hinv : ∀ q s, inv s → inv (answer q s).2)
    {p : Program I α} {s : σ} (hs : inv s) : ∀ e ∈ p.encounters answer s, inv e.2 := by
  induction p generalizing s with
  | done a => exact List.forall_mem_nil _
  | ask q next ih => exact List.forall_mem_cons.mpr ⟨hs, ih _ (hinv q s hs)⟩
  | stuck => exact List.forall_mem_nil _

end Program

/-- Demands have what sequences have and the loads. -/
theorem Sequences.demand {γ : Type} {P : (α : Type) → Work γ α → Prop} (h : Sequences P)
    {rounds : Nat} (hcache : P _ getCache) (hone : ∀ block, P _ (loadOne block))
    (hrange : ∀ range, P _ (loadRange rounds range)) (demand : Demand) :
    P _ (demand.work rounds) := by
  cases demand with
  | one block => exact h.bind (hone block) fun output => h.pure [output]
  | between first last =>
    change P _ (load rounds first last)
    unfold load
    split
    · exact h.pure []
    · exact h.bind hcache fun cache => h.bind (h.ofExcept _) hrange
  | ofRange range => exact hrange range

/-! ## Heeding the signal -/

variable {γ α β σ : Type} {answer : (q : Watch.Ask γ) → σ → Watch.Reply γ q × σ} {given : σ → Prop}

/-- The signal lasts once it is given. A question about it is answered by what is so then, and so
ends a pause of some length. Only the signal cuts a request short. -/
structure Announces (answer : (q : Watch.Ask γ) → σ → Watch.Reply γ q × σ) (given : σ → Prop) :
    Prop where
  lasts : ∀ q s, given s → given (answer q s).2
  stopping : ∀ s, (answer .stopping s).1 = true ↔ given (answer .stopping s).2
  pause : ∀ least span s, 0 < least →
    ((answer (.pause least span) s).1 = true ↔ given (answer (.pause least span) s).2)
  cut : ∀ what s, (answer (.fetch what) s).1 = none → given (answer (.fetch what) s).2

namespace Program

/-- No request is made once the signal is given, and then the run ends. -/
structure Heeds (answer : (q : Watch.Ask γ) → σ → Watch.Reply γ q × σ) (given : σ → Prop)
    (p : Program (Watch γ) α) (s : σ) : Prop where
  fetches : ∀ e ∈ p.encounters answer s, e.1.isFetch = true → ¬ given e.2
  returns : p.run answer s = none → ¬ given (p.final answer s)

theorem heeds_done {a : α} {s : σ} : (done a : Program (Watch γ) α).Heeds answer given s where
  fetches := List.forall_mem_nil _
  returns := nofun

theorem Heeds.ask {q : Watch.Ask γ} {next : Watch.Reply γ q → Program (Watch γ) α} {s : σ}
    (hq : q.isFetch = true → ¬ given s)
    (rest : (next (answer q s).1).Heeds answer given (answer q s).2) :
    (ask q next).Heeds answer given s where
  fetches := List.forall_mem_cons.mpr ⟨hq, rest.fetches⟩
  returns := rest.returns

theorem Heeds.bind {p : Program (Watch γ) α} {f : α → Program (Watch γ) β} {s : σ}
    (h : p.Heeds answer given s)
    (hf : ∀ a t, p.run answer s = some (a, t) → (f a).Heeds answer given t) :
    (p >>= f).Heeds answer given s := by
  cases hrun : p.run answer s with
  | none =>
    constructor
    · rw [encounters_bind, hrun, List.append_nil]
      exact h.fetches
    · rw [final_bind, hrun]
      exact fun _ => h.returns hrun
  | some outcome =>
    obtain ⟨a, t⟩ := outcome
    have hrest := hf a t hrun
    constructor
    · rw [encounters_bind, hrun, List.forall_mem_append]
      exact ⟨h.fetches, hrest.fetches⟩
    · rw [final_bind, run_bind, hrun]
      exact hrest.returns

end Program

/-! ### Requests that are repeated -/

variable {backoff : Backoff} {which : Fetch → Bool} {what : Fetch} {s : σ}

theorem Backoff.next_pos (hgreatest : 0 < backoff.greatest) {base : Nat} (hbase : 0 < base) :
    0 < backoff.next base := by
  unfold next
  split <;> omega

/-- Between two attempts there is a pause, so the signal is noticed in time. -/
theorem Announces.heeds_attempt (hann : Announces answer given) (hgreatest : 0 < backoff.greatest)
    {repeats base : Nat} (hbase : 0 < base) (hs : ¬ given s) :
    (attempt backoff what repeats base).Heeds answer given s := by
  induction repeats generalizing base s with
  | zero =>
    unfold attempt
    refine .ask (fun _ => hs) ?_
    rcases (answer (.fetch what) s).1 with _ | fault | value
    · exact Program.heeds_done
    · dsimp only
      rw [ite_self]
      exact Program.heeds_done
    · exact Program.heeds_done
  | succ repeats ih =>
    unfold attempt
    refine .ask (fun _ => hs) ?_
    rcases (answer (.fetch what) s).1 with _ | fault | value
    · exact Program.heeds_done
    · dsimp only
      split
      · exact Program.heeds_done
      refine .ask (absurd · Bool.false_ne_true) (.ask (absurd · Bool.false_ne_true) ?_)
      generalize (answer (.notify (.fetchFailed what fault)) (answer (.fetch what) s).2).2 = t
      cases hcut : (answer (.pause base base) t).1 with
      | true => exact Program.heeds_done
      | false =>
        refine ih (Backoff.next_pos hgreatest hbase) fun hgiven => ?_
        have htold := (hann.pause base base t hbase).mpr hgiven
        exact Bool.false_ne_true (hcut.symm.trans htold)
    · exact Program.heeds_done

theorem Announces.heeds_retry (hann : Announces answer given) (hleast : 0 < backoff.least)
    (hgreatest : 0 < backoff.greatest) : (retry backoff what).Heeds answer given s := by
  refine .ask nofun ?_
  cases hstopping : (answer .stopping s).1 with
  | true => exact Program.heeds_done
  | false =>
    refine hann.heeds_attempt hgreatest hleast fun hgiven => ?_
    exact Bool.false_ne_true (hstopping.symm.trans ((hann.stopping s).mpr hgiven))

/-! ### Loads -/

/-- Work of which every run heeds the signal. -/
def Work.Heeds (backoff : Backoff) (which : Fetch → Bool)
    (answer : (q : Watch.Ask γ) → σ → Watch.Reply γ q × σ) (given : σ → Prop) (x : Work γ α) :
    Prop :=
  ∀ cache s, (x.retrying backoff which cache).Heeds answer given s

theorem Work.retrying_bind (x : Work γ α) (f : α → Work γ β) (cache : OutputCache) :
    (x >>= f).retrying backoff which cache = x.retrying backoff which cache >>= fun
      | (.ok a, cache) => (f a).retrying backoff which cache
      | (.error fault, cache) => .done (.error fault, cache) := by
  unfold Work.retrying Program.retrying
  rw [bind_apply, Program.handle_bind]
  refine congrArg (_ >>= ·) (funext fun (result, cache) => ?_)
  cases result <;> rfl

theorem Work.retrying_ask (q : Watch.Ask γ) (cache : OutputCache) :
    (Work.ask q).retrying backoff which cache =
      retried backoff which q >>= fun reply => .done (.ok reply, cache) := rfl

theorem Work.heeds_bind {x : Work γ α} {f : α → Work γ β} {cache : OutputCache}
    (hx : (x.retrying backoff which cache).Heeds answer given s)
    (hf : ∀ a c t, (x.retrying backoff which cache).run answer s = some ((.ok a, c), t) →
      ((f a).retrying backoff which c).Heeds answer given t) :
    ((x >>= f).retrying backoff which cache).Heeds answer given s := by
  rw [Work.retrying_bind]
  refine hx.bind ?_
  rintro ⟨fault | a, c⟩ t hrun
  · exact Program.heeds_done
  · exact hf a c t hrun

theorem sequences_heeds :
    Sequences (γ := γ) fun _ x => x.Heeds backoff which answer given where
  pure a _ _ := Program.heeds_done
  ofExcept r _ _ := by cases r <;> exact Program.heeds_done
  bind hx hf cache s := Work.heeds_bind (hx cache s) fun a c t _ => hf a c t

variable (hann : Announces answer given) (hwhich : ∀ what, what.isRollup = true → which what = true)
  (hleast : 0 < backoff.least) (hgreatest : 0 < backoff.greatest)
include hann hwhich hleast hgreatest

/-- What is asked while loading. -/
theorem heeds_ask (q : Watch.Ask γ) (hq : q.OfLoading) :
    (Work.ask q).Heeds backoff which answer given := by
  intro cache s
  rw [Work.retrying_ask]
  refine Program.Heeds.bind ?_ fun _ _ _ => Program.heeds_done
  cases q with
  | fetch what =>
    have hrollup : what.isRollup = true := by cases what <;> first | rfl | exact hq.elim
    have hretry : retried (γ := γ) backoff which (.fetch what) = retry backoff what :=
      if_pos (hwhich what hrollup)
    rw [hretry]
    exact hann.heeds_retry hleast hgreatest
  | _ => exact .ask nofun Program.heeds_done

theorem heeds_fetchBatch {rounds : Nat} (blocks : List UInt64) (cache : OutputCache) (s : σ)
    (hrounds : rounds = 0 → ¬ given s) :
    ((fetchBatch blocks rounds).retrying backoff which cache).Heeds answer given s := by
  have hask := heeds_ask hann hwhich hleast hgreatest
  have hcheckpoint := sequences_heeds.checkpoint hask
  induction rounds generalizing cache s with
  | zero => exact ⟨List.forall_mem_nil _, fun _ => hrounds rfl⟩
  | succ rounds ih =>
    refine Work.heeds_bind (hcheckpoint cache s) fun _ c t _ => ?_
    refine Work.heeds_bind (hask (.fetch (.outputs blocks)) trivial c t) fun reply c t _ => ?_
    rcases reply with _ | fault | outputs
    · exact sequences_heeds.ofExcept (.error Cause.cancelled) c t
    · refine Work.heeds_bind (hask (.notify (.batchFailed fault)) trivial c t) fun _ c t _ => ?_
      refine Work.heeds_bind (hcheckpoint c t) fun _ c t _ => ?_
      refine Work.heeds_bind (hask (.pause batchRetryDelay 0) trivial c t) fun cut c' t' hrun => ?_
      obtain ⟨hout, rfl⟩ := Prod.mk.inj (Option.some.inj hrun)
      obtain ⟨hcut, rfl⟩ := Prod.mk.inj hout
      cases cut with
      | true => exact sequences_heeds.ofExcept (.error Cause.cancelled) c _
      | false =>
        refine ih c _ fun _ hgiven => ?_
        have htold := (hann.pause batchRetryDelay 0 t (by decide)).mpr hgiven
        exact Bool.false_ne_true ((Except.ok.inj hcut).symm.trans htold)
    · exact sequences_heeds.pure outputs c t

theorem heeds_loadRange {rounds : Nat} (hrounds : 0 < rounds) (range : Game.Range) :
    (loadRange rounds range).Heeds backoff which answer given :=
  sequences_heeds.loadRange_of_fetchBatch (fun _ _ _ => Program.heeds_done)
    (fun _ _ _ => Program.heeds_done) (heeds_ask hann hwhich hleast hgreatest)
    (fun blocks cache s => heeds_fetchBatch hann hwhich hleast hgreatest blocks cache s
      fun hzero => absurd hzero (Nat.ne_of_gt hrounds)) range

theorem Demand.heeds_work {rounds : Nat} (hrounds : 0 < rounds) (demand : Demand) :
    (demand.work rounds).Heeds backoff which answer given := by
  have hone (block : UInt64) : (loadOne block).Heeds backoff which answer given :=
    sequences_heeds.loadOne (fun _ _ _ => Program.heeds_done) (fun _ _ _ => Program.heeds_done)
      (heeds_ask hann hwhich hleast hgreatest) block
  exact sequences_heeds.demand (fun _ _ => Program.heeds_done) hone
    (heeds_loadRange hann hwhich hleast hgreatest hrounds) demand

end Watchtower
