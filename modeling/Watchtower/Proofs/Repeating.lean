import Watchtower.Proofs.Traces
import Watchtower.Retry

/-!
# Requests come back with a success or a cancellation

* `failed what base fault` : an attempt that failed and is followed by another one: the request, the
  report, and a pause that is not cut short;
* `Attempts backoff what repeats base trace reply` : all that a request with `repeats` repeats left
  can do, and what comes of it (`attempts_of_yields`);
* `Unstopped` : the rely of a time in which there is no signal to stop;
* `requests trace`, `reports trace` : the requests made, with their answers, and what was reported;
* `Repeated` : the requests are failures and then the one that the result comes from
  (`Attempts.repeated`);
* `Attempts.isCancelled_or` : a fault that is not a cancellation takes all repeats;
* `repeated_until_success` : so a request that is repeated comes back with the first success or the
  first cancellation, and its caller sees no other fault.
-/

namespace Watchtower

open Program

variable {γ σ : Type} {backoff : Backoff} {what : Fetch} {repeats base : Nat}
  {trace first second : List (Exchange (Watch γ))} {reply : Option (Except Fault what.Value)}

/-! ## Attempt after attempt -/

def failed (what : Fetch) (base : Nat) (fault : Fault) : List (Exchange (Watch γ)) :=
  [⟨.fetch what, some (.error fault)⟩, ⟨.notify (.fetchFailed what fault), ()⟩,
    ⟨.pause base base, false⟩]

inductive Attempts (backoff : Backoff) (what : Fetch) : (repeats base : Nat) →
    List (Exchange (Watch γ)) → Option (Except Fault what.Value) → Prop
  /-- The signal to stop comes before the answer. -/
  | cut {repeats base : Nat} : Attempts backoff what repeats base [⟨.fetch what, none⟩] none
  /-- The answer is not asked for again. -/
  | answered {repeats base : Nat} {result : Except Fault what.Value}
      (h : ∀ fault, result = .error fault → fault.isCancelled = true ∨ repeats = 0) :
      Attempts backoff what repeats base [⟨.fetch what, some result⟩] (some result)
  /-- The signal to stop comes before the next attempt. -/
  | stopped {repeats base : Nat} {fault : Fault} (h : fault.isCancelled = false) :
      Attempts backoff what (repeats + 1) base
        [⟨.fetch what, some (.error fault)⟩, ⟨.notify (.fetchFailed what fault), ()⟩,
          ⟨.pause base base, true⟩] none
  | again {repeats base : Nat} {fault : Fault} {trace : List (Exchange (Watch γ))}
      {reply : Option (Except Fault what.Value)} (h : fault.isCancelled = false)
      (rest : Attempts backoff what repeats (backoff.next base) trace reply) :
      Attempts backoff what (repeats + 1) base (failed what base fault ++ trace) reply

theorem attempts_of_yields
    (h : (attempt backoff what repeats base : Program (Watch γ) _).Yields trace reply) :
    Attempts backoff what repeats base trace reply := by
  induction repeats generalizing base trace with
  | zero =>
    unfold attempt at h
    obtain ⟨answer, rest, rfl, hrest⟩ := Program.yields_ask_iff.mp h
    clear h
    rcases answer with _ | fault | value
    · obtain ⟨rfl, rfl⟩ := yields_done_iff.mp hrest
      exact .cut
    · dsimp only at hrest
      rw [ite_self] at hrest
      obtain ⟨rfl, rfl⟩ := yields_done_iff.mp hrest
      exact .answered fun _ _ => .inr rfl
    · obtain ⟨rfl, rfl⟩ := yields_done_iff.mp hrest
      exact .answered nofun
  | succ repeats ih =>
    unfold attempt at h
    obtain ⟨answer, rest, rfl, hrest⟩ := Program.yields_ask_iff.mp h
    clear h
    rcases answer with _ | fault | value
    · obtain ⟨rfl, rfl⟩ := yields_done_iff.mp hrest
      exact .cut
    · dsimp only at hrest
      split at hrest
      · next hcancelled =>
        obtain ⟨rfl, rfl⟩ := yields_done_iff.mp hrest
        refine .answered fun _ he => .inl ?_
        obtain rfl := Except.error.inj he
        exact hcancelled
      · next hother =>
        have hother := Bool.eq_false_iff.mpr hother
        obtain ⟨_, rest, rfl, hreported⟩ := Program.yields_ask_iff.mp hrest
        obtain ⟨stopped, rest, rfl, hpaused⟩ := Program.yields_ask_iff.mp hreported
        cases stopped with
        | true =>
          obtain ⟨rfl, rfl⟩ := yields_done_iff.mp hpaused
          exact .stopped hother
        | false => exact .again hother (ih hpaused)
    · obtain ⟨rfl, rfl⟩ := yields_done_iff.mp hrest
      exact .answered nofun

/-! ## What a request that is repeated asks and reports -/

/-- There is no signal to stop. -/
def Unstopped : (Watch γ).Rely
  | .stopping, stopping => stopping = false
  | .pause .., cut => cut = false
  | .fetch _, reply => reply ≠ none
  | _, _ => True

def Watch.Ask.isFetch : Watch.Ask γ → Bool
  | .fetch _ => true
  | _ => false

def Watch.Ask.notice? : Watch.Ask γ → Option Notice
  | .notify notice => some notice
  | _ => none

/-- The requests that are made, with their answers. -/
def requests (trace : List (Exchange (Watch γ))) : List (Exchange (Watch γ)) :=
  trace.filter (·.ask.isFetch)

def reports (trace : List (Exchange (Watch γ))) : List Notice :=
  trace.filterMap (·.ask.notice?)

@[simp] theorem requests_append : requests (first ++ second) = requests first ++ requests second :=
  List.filter_append ..

@[simp] theorem reports_append : reports (first ++ second) = reports first ++ reports second :=
  List.filterMap_append

@[simp] theorem requests_failed (fault : Fault) :
    requests (failed what base fault : List (Exchange (Watch γ))) =
      [⟨.fetch what, some (.error fault)⟩] := rfl

@[simp] theorem reports_failed (fault : Fault) :
    reports (failed what base fault : List (Exchange (Watch γ))) = [.fetchFailed what fault] := rfl

/-- What a caller is told of a request that was cut short. -/
def told (reply : Option (Except Fault what.Value)) : Except Fault what.Value :=
  reply.getD (.error Cause.cancelled)

/-- Failures that are no cancellations, and then the answer that no further attempt follows. -/
structure Repeated (what : Fetch) (repeats : Nat) (trace : List (Exchange (Watch γ)))
    (result : Except Fault what.Value) (faults : List Fault) : Prop where
  asked : requests trace =
    faults.map (fun fault => ⟨.fetch what, some (.error fault)⟩) ++ [⟨.fetch what, some result⟩]
  reported : reports trace = faults.map (.fetchFailed what)
  warned : ∀ notice ∈ reports trace, notice.level = .warn
  others : ∀ fault ∈ faults, fault.isCancelled = false
  bounded : faults.length ≤ repeats
  last : ∀ fault, result = .error fault → fault.isCancelled = true ∨ faults.length = repeats

theorem Attempts.repeated (h : Attempts backoff what repeats base trace reply)
    (hcalm : ∀ e ∈ trace, Unstopped e.ask e.reply) :
    ∃ result faults, reply = some result ∧ Repeated what repeats trace result faults := by
  induction h with
  | cut => exact absurd rfl (hcalm _ List.mem_cons_self)
  | answered h =>
    refine ⟨_, [], rfl, rfl, rfl, List.forall_mem_nil _, List.forall_mem_nil _, Nat.zero_le _, ?_⟩
    exact fun fault he => (h fault he).imp_right Eq.symm
  | @stopped repeats base fault =>
    exact nomatch hcalm ⟨.pause base base, true⟩ (by simp)
  | @again repeats base fault trace reply h _ ih =>
    obtain ⟨result, faults, rfl, hrepeated⟩ := ih fun e he => hcalm e (List.mem_append_right _ he)
    refine ⟨result, fault :: faults, rfl, ?_, ?_, ?_, ?_, ?_, ?_⟩
    · rw [requests_append, requests_failed, hrepeated.asked]
      rfl
    · rw [reports_append, reports_failed, hrepeated.reported]
      rfl
    · rw [reports_append, reports_failed]
      exact List.forall_mem_cons.mpr ⟨rfl, hrepeated.warned⟩
    · exact List.forall_mem_cons.mpr ⟨h, hrepeated.others⟩
    · exact Nat.succ_le_succ hrepeated.bounded
    · exact fun fault he => (hrepeated.last fault he).imp_right (congrArg (· + 1))

/-- A fault that is no cancellation is the last of as many as there may be. -/
theorem Attempts.isCancelled_or (h : Attempts backoff what repeats base trace reply) (fault : Fault)
    (hfault : told reply = .error fault) :
    fault.isCancelled = true ∨ repeats < (requests trace).length := by
  induction h with
  | cut | stopped =>
    obtain rfl := Except.error.inj hfault
    exact .inl rfl
  | answered h =>
    refine (h fault hfault).imp_right fun hzero => ?_
    rw [hzero]
    exact Nat.one_pos
  | again _ _ ih =>
    refine (ih hfault).imp_right fun hmany => ?_
    rw [requests_append, requests_failed, List.length_append, List.length_singleton]
    omega

/-! ## The whole request -/

/-- Once the signal to stop has been given, no attempt is made at all. -/
theorem attempts_of_yields_retry
    (h : (retry backoff what : Program (Watch γ) _).Yields trace reply) :
    (trace = [⟨.stopping, true⟩] ∧ reply = some (.error Cause.cancelled)) ∨
      ∃ later, trace = ⟨.stopping, false⟩ :: later ∧
        Attempts backoff what maxRepeats backoff.least later reply := by
  obtain ⟨stopped, later, rfl, hlater⟩ := Program.yields_ask_iff.mp h
  cases stopped with
  | true =>
    obtain ⟨rfl, rfl⟩ := yields_done_iff.mp hlater
    exact .inl ⟨rfl, rfl⟩
  | false => exact .inr ⟨later, rfl, attempts_of_yields hlater⟩

theorem repeated_of_yields_retry
    (h : (retry backoff what : Program (Watch γ) _).Yields trace reply)
    (hcalm : ∀ e ∈ trace, Unstopped e.ask e.reply) :
    ∃ faults, Repeated what maxRepeats trace (told reply) faults := by
  rcases attempts_of_yields_retry h with ⟨rfl, -⟩ | ⟨later, rfl, hattempts⟩
  · exact nomatch hcalm ⟨.stopping, true⟩ List.mem_cons_self
  · obtain ⟨result, faults, rfl, hrepeated⟩ :=
      hattempts.repeated fun e he => hcalm e (List.mem_cons_of_mem _ he)
    exact ⟨faults, hrepeated.asked, hrepeated.reported, hrepeated.warned, hrepeated.others,
      hrepeated.bounded, hrepeated.last⟩

theorem isCancelled_or_of_yields_retry
    (h : (retry backoff what : Program (Watch γ) _).Yields trace reply) (fault : Fault)
    (hfault : told reply = .error fault) :
    fault.isCancelled = true ∨ maxRepeats < (requests trace).length := by
  rcases attempts_of_yields_retry h with ⟨-, rfl⟩ | ⟨later, rfl, hattempts⟩
  · obtain rfl := Except.error.inj hfault
    exact .inl rfl
  · exact hattempts.isCancelled_or fault hfault

theorem meets_attempt (rely : (Watch γ).Rely) :
    (attempt backoff what repeats base).Meets rely (· ≠ none) := by
  induction repeats generalizing base with
  | zero =>
    unfold attempt
    rintro (_ | fault | value) -
    · exact Option.some_ne_none _
    · dsimp only
      rw [ite_self]
      exact Option.some_ne_none _
    · exact Option.some_ne_none _
  | succ repeats ih =>
    unfold attempt
    rintro (_ | fault | value) -
    · exact Option.some_ne_none _
    · dsimp only
      split
      · exact Option.some_ne_none _
      · rintro - - (_ | _) -
        · exact ih
        · exact Option.some_ne_none _
    · exact Option.some_ne_none _

theorem meets_retry (rely : (Watch γ).Rely) :
    (retry backoff what).Meets rely (· ≠ none) := by
  rintro (_ | _) -
  · exact meets_attempt rely
  · exact Option.some_ne_none _

namespace Program

variable {I : Interface} {α β : Type} {answer : ∀ q : I.Ask, σ → I.Reply q × σ}

/-- A program that never gets stuck is run to its end. -/
theorem exists_run {p : Program I α} (h : p.Meets (fun _ _ => True) (· ≠ none)) (s : σ) :
    ∃ a t, p.run answer s = some (a, t) := by
  have hne : (p.run answer s).map Prod.fst ≠ none := h.of_exchanges fun _ _ => trivial
  obtain ⟨a, ha⟩ := Option.ne_none_iff_exists'.mp hne
  obtain ⟨⟨_, t⟩, ht, rfl⟩ := Option.map_eq_some_iff.mp ha
  exact ⟨_, t, ht⟩

theorem exchanges_bind_done (p : Program I α) (f : α → β) (s : σ) :
    (p >>= fun a => done (f a)).exchanges answer s = p.exchanges answer s := by
  induction p generalizing s with
  | done a => rfl
  | ask q next ih => exact congrArg _ (ih _ _)
  | stuck => rfl

end Program

/-- Work whose requests of a kind are all repeated. -/
def Work.retrying {α : Type} (backoff : Backoff) (which : Fetch → Bool) (x : Work γ α) : Work γ α :=
  fun cache => (x cache).retrying backoff which

theorem retrying_fetch {which : Fetch → Bool} (hwhich : which what = true) (cache : OutputCache) :
    (Work.fetch what : Work γ what.Value).retrying backoff which cache =
      retry backoff what >>= fun reply => .done (told reply, cache) := by
  have hretried : retried (γ := γ) backoff which (.fetch what) = retry backoff what := if_pos hwhich
  change retried backoff which (.fetch what) >>= _ = _
  rw [hretried]
  refine congrArg (retry backoff what >>= ·) (funext fun reply => ?_)
  rcases reply with _ | fault | value <;> rfl

/-- A request that is repeated always comes back. While there is no signal to stop, the same request
is made again and again: there are failures that are no cancellations, each reported with a warning,
and then comes the one whose success or cancellation is returned. And with or without that signal a
caller sees no other fault, or it would be that of more failures than there is time for. -/
theorem repeated_until_success (backoff : Backoff) (which : Fetch → Bool) (what : Fetch)
    (hwhich : which what = true)
    (answer : (q : Watch.Ask γ) → σ → Watch.Reply γ q × σ) (s : σ) (cache : OutputCache) :
    ∃ result s' trace,
      ((Work.fetch what).retrying backoff which cache).run answer s = some ((result, cache), s') ∧
      ((Work.fetch what).retrying backoff which cache).exchanges answer s = trace ∧
      ((∀ e ∈ trace, Unstopped e.ask e.reply) →
        ∃ faults, Repeated what maxRepeats trace result faults) ∧
      ∀ fault, result = .error fault →
        fault.isCancelled = true ∨ maxRepeats < (requests trace).length := by
  rw [retrying_fetch hwhich]
  obtain ⟨reply, s', hrun⟩ : ∃ reply s', (retry backoff what).run answer s = some (reply, s') :=
    exists_run (meets_retry (fun _ _ => True) : (retry backoff what).Meets ..) s
  have hyields := yields_of_run hrun
  refine ⟨told reply, s', _, ?_, exchanges_bind_done .., repeated_of_yields_retry hyields,
    isCancelled_or_of_yields_retry hyields⟩
  rw [run_bind, hrun]
  rfl

namespace Sample

/-! ## A node that refuses the first two requests -/

def balky : (q : Watch.Ask Unit) → Nat → Watch.Reply Unit q × Nat
  | .fetch (.code _), n =>
    (some (if n < 2 then .error (Cause.reported "request timed out") else .ok [0x60]), n + 1)
  | .fetch _, n => (some (.error (Cause.reported "request timed out")), n + 1)
  | .read .., n | .validate _, n | .submit .., n => (.error (Cause.reported "no contract"), n)
  | .now, n => (0, n)
  | .stopping, n | .pause .., n => (false, n)
  | .notify _, n => ((), n)

theorem unstopped_balky (q : Watch.Ask Unit) (n : Nat) : Unstopped q (balky q n).1 := by
  cases q with
  | fetch what => cases what <;> exact Option.some_ne_none _
  | stopping | pause => rfl
  | _ => trivial

def cold : OutputCache := ⟨60, .empty 4⟩

end Sample

open Sample in
/-- The third request succeeds. -/
theorem repeated_until_success_sample : ∃ s' faults,
    ((Work.fetch (.code .zero)).retrying {} (fun _ => true) cold).run balky 0 =
      some ((.ok [0x60], cold), s') ∧
    faults.length = 2 ∧
    Repeated (.code .zero) maxRepeats
      (((Work.fetch (.code .zero)).retrying {} (fun _ => true) cold).exchanges balky 0)
      (.ok [0x60]) faults := by
  have hwhole : ((Work.fetch (.code .zero)).retrying {} (fun _ => true) cold).run balky 0 =
      some ((.ok [0x60], cold), 3) := by cbv
  have hthree : (requests (((Work.fetch (.code .zero)).retrying {} (fun _ => true) cold).exchanges
      balky 0)).length = 3 := by decide +kernel
  obtain ⟨result, s', trace, hrun, rfl, hcalm, -⟩ :=
    repeated_until_success {} (fun _ => true) (.code .zero) rfl balky 0 cold
  obtain ⟨faults, hrepeated⟩ := hcalm (Program.exchanges_rely unstopped_balky)
  obtain ⟨hreturned, -⟩ := Prod.mk.inj (Option.some.inj (hwhole.symm.trans hrun))
  obtain rfl := (Prod.mk.inj hreturned).1
  refine ⟨s', faults, hrun, ?_, hrepeated⟩
  rw [hrepeated.asked, List.length_append, List.length_map, List.length_singleton] at hthree
  omega

end Watchtower
