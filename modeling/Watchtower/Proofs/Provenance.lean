import Watchtower.Proofs.Heeding
import Watchtower.Proofs.Outcome

/-!
# What comes of a demand on a cache, with or without a signal to stop

* `Obtained trace output`, `cache.Caches output` : the two ways in which an output is had;
* `Relays trace` : the rely of work whose requests are the repeated ones of the trace
  (`relays_of_yields`);
* `cache.Sound` : no block has two entries, which all work keeps (`Demand.keeps_sound`);
* `Spares before had may` : outputs that were cached or are had, or a fault in `may` that leaves
  what is cached as it was. Each load comes to such a result (`upholds_loadOne_sound`,
  `upholds_loadRange_sound`), and so does a demand (`Demand.upholds_spares`);
* `Session` : demands on one cache, one after another, with time in between;
* `signal_heeded` : a demand in a session makes no request after the signal, comes to an end once
  that is given, and spares the cache if it fails.
-/

namespace Watchtower

open Work OutputCache

variable {γ α β σ : Type} {backoff : Backoff} {which : Fetch → Bool} {what : Fetch}

/-! ## What comes of a demand -/

/-- The node gave the output, alone or in a batch. -/
inductive Obtained (trace : List (Exchange (Watch γ))) (output : Rollup.Output) : Prop
  | single {block : UInt64} (h : ⟨.fetch (.output block), some (.ok output)⟩ ∈ trace) :
      Obtained trace output
  | batch {blocks : List UInt64} {outputs : List Rollup.Output}
      (h : ⟨.fetch (.outputs blocks), some (.ok outputs)⟩ ∈ trace) (hmem : output ∈ outputs) :
      Obtained trace output

/-- A cancellation, or the last of as many failures as there may be. -/
def GaveUp (trace : List (Exchange (Watch γ))) (fault : Fault) : Prop :=
  fault.isCancelled = true ∨ maxRepeats < (requests trace).length

/-- The rely of a node behind the requests of the trace. -/
def Relays (trace : List (Exchange (Watch γ))) : (Watch γ).Rely
  | .fetch what, some (.ok value) => ⟨.fetch what, some (.ok value)⟩ ∈ trace
  | .fetch _, some (.error fault) => GaveUp trace fault
  | _, _ => True

theorem Attempts.mem {repeats base : Nat} {trace : List (Exchange (Watch γ))}
    {reply : Option (Except Fault what.Value)}
    (h : Attempts backoff what repeats base trace reply) (hreply : reply ≠ none) :
    ⟨.fetch what, reply⟩ ∈ trace := by
  induction h with
  | cut | stopped => exact absurd rfl hreply
  | answered => exact List.mem_cons_self
  | again _ _ ih => exact List.mem_append_right _ (ih hreply)

theorem relays_of_yields (hwhich : ∀ what, what.isRollup = true → which what = true)
    {q : Watch.Ask γ} (hq : q.OfLoading) {part trace : List (Exchange (Watch γ))}
    {reply : Watch.Reply γ q} (hy : (retried backoff which q).Yields part reply)
    (hpart : part.Sublist trace) : Relays trace q reply := by
  cases q with
  | fetch what =>
    have hrollup : what.isRollup = true := by cases what <;> first | rfl | exact hq.elim
    have hretry : retried (γ := γ) backoff which (.fetch what) = retry backoff what :=
      if_pos (hwhich what hrollup)
    rw [hretry] at hy
    rcases reply with _ | fault | value
    · trivial
    · refine (isCancelled_or_of_yields_retry hy fault rfl).imp_right fun hmany => ?_
      exact Nat.lt_of_lt_of_le hmany (hpart.filter _).length_le
    · rcases attempts_of_yields_retry hy with ⟨-, hreply⟩ | ⟨later, rfl, hattempts⟩
      · cases hreply
      · exact hpart.subset (List.mem_cons_of_mem _ (hattempts.mem (Option.some_ne_none _)))
  | _ => trivial

/-! ### The cache -/

section
variable {rely : (Watch γ).Rely} {cache : OutputCache}

def OutputCache.Caches (cache : OutputCache) (output : Rollup.Output) : Prop :=
  ∃ block, (block, output) ∈ cache.table.entries

/-- No block has two entries, and the stride is one that a range can have. -/
structure OutputCache.Sound (cache : OutputCache) : Prop where
  distinct : cache.table.keys.Nodup
  stride : cache.stride ≠ 0

theorem sound_of {capacity : Nat} {stride : UInt64}
    (h : OutputCache.of capacity stride = .ok cache) : cache.Sound := by
  unfold OutputCache.of at h
  split at h
  · cases h
  · split at h
    · cases h
    · next hstride =>
      obtain rfl := Except.ok.inj h
      exact ⟨List.nodup_nil, hstride⟩

theorem keeps_sound_lookup (block : UInt64) : (lookup block).Keeps rely Sound :=
  fun _ hc => ⟨Recency.nodup_get? hc.distinct block, hc.stride⟩

theorem keeps_sound_store (output : Rollup.Output) : (store output).Keeps rely Sound :=
  fun _ hc => ⟨Recency.nodup_insert hc.distinct _ _, hc.stride⟩

theorem Demand.keeps_sound (demand : Demand) (rounds : Nat) :
    (demand.work rounds).Keeps rely Sound := by
  have hone (block : UInt64) : (loadOne block).Keeps rely Sound :=
    composes_keeps.loadOne keeps_sound_lookup keeps_sound_store (fun q _ => keeps_ask q) block
  have hrange (rounds : Nat) (range : Game.Range) : (loadRange rounds range).Keeps rely Sound :=
    composes_keeps.loadRange keeps_sound_lookup keeps_sound_store (fun q _ => keeps_ask q)
      keeps_stuck rounds range
  exact composes_keeps.demand (fun _ hc => hc) hone (hrange rounds) demand

theorem upholds_lookup_sound (hc : cache.Sound) (block : UInt64) :
    (lookup block).Upholds rely cache fun r c => c.Sound ∧
      c.table.entries.Perm cache.table.entries ∧
      ∃ found, r = .ok found ∧ ∀ output, found = some output → cache.Caches output := by
  refine ⟨⟨Recency.nodup_get? hc.distinct block, hc.stride⟩, Recency.perm_get? hc.distinct block,
    _, rfl, fun output h => ?_⟩
  change (cache.table.get? block).1 = some output at h
  rw [Recency.fst_get?] at h
  exact ⟨block, Recency.mem_of_peek? h⟩

theorem upholds_lookupAll_sound (hc : cache.Sound) (blocks : List UInt64) :
    (lookupAll blocks).Upholds rely cache fun r c => c.Sound ∧
      c.table.entries.Perm cache.table.entries ∧
      ∃ hits missing, r = .ok (hits, missing) ∧ ∀ output ∈ hits, cache.Caches output := by
  induction blocks generalizing cache with
  | nil => exact upholds_pure ⟨hc, .refl _, [], [], rfl, List.forall_mem_nil _⟩
  | cons block blocks ih =>
    refine Upholds.bind ((upholds_lookup_sound hc block).imp ?_)
    rintro _ c ⟨hc, hperm, found, rfl, hfound⟩
    refine Upholds.bind ((ih hc).imp ?_)
    rintro _ c' ⟨hc', hperm', hits, missing, rfl, hhits⟩
    have hcached : ∀ output ∈ hits, cache.Caches output := fun output ho =>
      (hhits output ho).imp fun _ he => hperm.subset he
    cases found with
    | none => exact upholds_pure ⟨hc', hperm'.trans hperm, hits, block :: missing, rfl, hcached⟩
    | some output =>
      refine upholds_pure ⟨hc', hperm'.trans hperm, output :: hits, missing, rfl, ?_⟩
      exact List.forall_mem_cons.mpr ⟨hfound output rfl, hcached⟩

/-! ### Faults of the loads -/

namespace Work

variable {may : Fault → Prop}

theorem failsAs_pure (a : α) : (pure a : Work γ α).FailsAs rely may := fun _ => upholds_pure nofun

theorem failsAs_fail {fault : Fault} (h : may fault) : (fail fault : Work γ α).FailsAs rely may :=
  fun _ _ he => Except.error.inj he ▸ h

theorem failsAs_ask (q : Watch.Ask γ) : (ask q).FailsAs rely may :=
  fun _ => upholds_ask fun _ _ => nofun

theorem FailsAs.bind {x : Work γ α} {f : α → Work γ β} (h : x.FailsAs rely may)
    (hf : ∀ a, (f a).FailsAs rely may) : (x >>= f).FailsAs rely may := by
  intro cache
  refine Upholds.bind ((h cache).imp ?_)
  rintro (fault | a) c hr
  · intro _ he
    obtain rfl := Except.error.inj he
    exact hr fault rfl
  · exact hf a c

end Work

theorem failsAs_checkpoint : checkpoint.FailsAs rely (·.isCancelled = true) := by
  refine (failsAs_ask .stopping).bind fun stopping => ?_
  split
  · exact failsAs_fail rfl
  · exact failsAs_pure ()

/-- Other faults are reported, and the batch is asked for again. -/
theorem failsAs_fetchBatch (blocks : List UInt64) (rounds : Nat) :
    (fetchBatch blocks rounds).FailsAs rely (·.isCancelled = true) := by
  induction rounds with
  | zero => exact fun _ => trivial
  | succ rounds ih =>
    refine failsAs_checkpoint.bind fun _ => (failsAs_ask _).bind fun reply => ?_
    rcases reply with _ | fault | outputs
    · exact failsAs_fail rfl
    · refine (failsAs_ask _).bind fun _ => failsAs_checkpoint.bind fun _ => ?_
      refine (failsAs_ask _).bind fun cut => ?_
      cases cut with
      | true => exact failsAs_fail rfl
      | false => exact ih
    · exact failsAs_pure outputs

/-- What is stored is returned, and that does not fail. -/
theorem upholds_accept_sublist (outputs : List Rollup.Output) (requested : List UInt64) :
    (accept requested outputs).Upholds rely cache fun r _ =>
      ∃ accepted, r = .ok accepted ∧ accepted.Sublist outputs := by
  induction outputs generalizing requested cache with
  | nil => exact upholds_pure ⟨[], rfl, .slnil⟩
  | cons output outputs ih =>
    rw [accept]
    split
    · refine Upholds.bind (upholds_pure ?_)
      refine Upholds.bind ((ih (requested.erase output.number)).imp ?_)
      rintro _ _ ⟨accepted, rfl, hsub⟩
      exact upholds_pure ⟨output :: accepted, rfl, hsub.cons_cons output⟩
    · refine Upholds.bind (upholds_ask fun _ _ => (ih requested).imp ?_)
      rintro _ _ ⟨accepted, rfl, hsub⟩
      exact ⟨accepted, rfl, hsub.cons output⟩

/-! ### Demands -/

/-- Outputs that were cached or are had, or a fault that leaves what is cached as it was. -/
def Spares (before : OutputCache) (had : Rollup.Output → Prop) (may : Fault → Prop) :
    Except Fault (List Rollup.Output) → OutputCache → Prop
  | .ok outputs, _ => ∀ output ∈ outputs, before.Caches output ∨ had output
  | .error fault, cache => may fault ∧ cache.table.entries.Perm before.table.entries

theorem upholds_loadOne_sound {trace : List (Exchange (Watch γ))} (hc : cache.Sound)
    (block : UInt64) :
    (loadOne block).Upholds (Relays trace) cache fun
      | .ok output, _ => cache.Caches output ∨ Obtained trace output
      | .error fault, c => GaveUp trace fault ∧ c.table.entries.Perm cache.table.entries := by
  refine Upholds.bind ((upholds_lookup_sound hc block).imp ?_)
  rintro _ c ⟨-, hperm, found, rfl, hfound⟩
  cases found with
  | some output => exact upholds_pure (.inl (hfound output rfl))
  | none =>
    have hkeeps : checkpoint.Keeps (Relays trace) (· = c) := keeps_checkpoint
    refine Upholds.bind (((hkeeps c rfl).and (failsAs_checkpoint c)).imp ?_)
    rintro (fault | _) _ ⟨rfl, hcancelled⟩
    · exact ⟨.inl (hcancelled fault rfl), hperm⟩
    refine Upholds.bind (upholds_fetch fun reply hreply => ?_)
    rcases reply with _ | fault | output
    · exact ⟨.inl rfl, hperm⟩
    · exact ⟨hreply, hperm⟩
    · exact Upholds.bind (upholds_pure (.inr (.single hreply)))

theorem upholds_loadRange_sound {trace : List (Exchange (Watch γ))} (hc : cache.Sound)
    (rounds : Nat) (range : Game.Range) :
    (loadRange rounds range).Upholds (Relays trace) cache
      (Spares cache (Obtained trace) (·.isCancelled = true)) := by
  refine Upholds.bind ((upholds_lookupAll_sound hc range.positions).imp ?_)
  rintro _ c ⟨-, hperm, hits, missing, rfl, hhits⟩
  have hmissing : (loadMissing rounds missing).Upholds (Relays trace) c fun
      | .ok fetched, _ => ∀ output ∈ fetched, Obtained trace output
      | .error fault, c' => fault.isCancelled = true ∧ c' = c := by
    unfold loadMissing
    split
    · exact upholds_pure (List.forall_mem_nil _)
    refine Upholds.bind (((upholds_fetchBatch missing rounds).and
      (failsAs_fetchBatch missing rounds c)).imp ?_)
    rintro (fault | outputs) _ ⟨⟨rfl, hanswer⟩, hcancelled⟩
    · exact ⟨hcancelled fault rfl, rfl⟩
    refine (upholds_accept_sublist outputs missing).imp ?_
    rintro _ _ ⟨accepted, rfl, hsub⟩
    exact fun output ho => .batch hanswer (hsub.subset ho)
  refine Upholds.bind (hmissing.imp ?_)
  rintro (fault | fetched) c' hfetched
  · obtain ⟨hcancelled, rfl⟩ := hfetched
    exact ⟨hcancelled, hperm⟩
  refine upholds_arrange fun output ho => ?_
  rcases List.mem_append.mp ((perm_ascending _).subset ho) with ho | ho
  · exact .inl (hhits output ho)
  · exact .inr (hfetched output ho)

/-- Only a demand for one output may run out of time. -/
def Demand.MayFail (demand : Demand) (trace : List (Exchange (Watch γ))) (fault : Fault) : Prop :=
  fault.isCancelled = true ∨ (∃ block, demand = .one block) ∧ maxRepeats < (requests trace).length

theorem Demand.upholds_spares {trace : List (Exchange (Watch γ))} (hc : cache.Sound) (rounds : Nat)
    (demand : Demand) :
    (demand.work rounds).Upholds (Relays trace) cache
      (Spares cache (Obtained trace) (demand.MayFail trace)) := by
  have hrange (range : Game.Range) : (loadRange rounds range).Upholds (Relays trace) cache
      (Spares cache (Obtained trace) (demand.MayFail trace)) := by
    refine (upholds_loadRange_sound hc rounds range).imp ?_
    rintro (fault | outputs) c hr
    · exact ⟨.inl hr.1, hr.2⟩
    · exact hr
  cases demand with
  | one block =>
    refine Upholds.bind ((upholds_loadOne_sound hc block).imp ?_)
    rintro (fault | output) c hr
    · exact ⟨hr.1.imp_right fun hmany => ⟨⟨block, rfl⟩, hmany⟩, hr.2⟩
    · exact upholds_pure (List.forall_mem_singleton.mpr hr)
  | between first last =>
    change (load rounds first last).Upholds ..
    unfold load
    split
    · exact upholds_pure (List.forall_mem_nil _)
    next hle =>
    change (Work.ofExcept (Game.Range.of first last cache.stride) >>= loadRange rounds).Upholds ..
    obtain ⟨range, hof⟩ := Game.Range.exists_of (UInt64.not_lt.mp hle) hc.stride
    rw [hof]
    exact hrange range
  | ofRange range => exact hrange range

end

/-! ## Sessions -/

/-- A fresh cache that demands are made on, one after another, with time for the signal to be given
in between. -/
inductive Session (answer : (q : Watch.Ask γ) → σ → Watch.Reply γ q × σ) (given : σ → Prop)
    (backoff : Backoff) (which : Fetch → Bool) : OutputCache → σ → Prop
  | start {capacity : Nat} {stride : UInt64} {cache : OutputCache}
      (h : OutputCache.of capacity stride = .ok cache) (s : σ) :
      Session answer given backoff which cache s
  | idle {cache : OutputCache} {s t : σ} (before : Session answer given backoff which cache s)
      (h : given s → given t) : Session answer given backoff which cache t
  | turn {cache cache' : OutputCache} {s t : σ} {demand : Demand} {rounds : Nat}
      {result : Except Fault (List Rollup.Output)}
      (before : Session answer given backoff which cache s)
      (run : ((demand.work rounds).retrying backoff which cache).run answer s =
        some ((result, cache'), t)) : Session answer given backoff which cache' t

theorem Demand.asks_work (rounds : Nat) (demand : Demand) :
    (demand.work (γ := γ) rounds).Asks Watch.Ask.OfLoading :=
  sequences_asks.demand (fun _ => trivial) asks_loadOne (asks_loadRange rounds) demand

theorem Demand.relayed (hwhich : ∀ what, what.isRollup = true → which what = true) {demand : Demand}
    {rounds : Nat} {cache cache' : OutputCache} {trace : List (Exchange (Watch γ))}
    {result : Except Fault (List Rollup.Output)}
    (hy : ((demand.work rounds).retrying backoff which cache).Yields trace (result, cache')) :
    ∃ outer, (demand.work rounds).Yields cache outer result cache' ∧
      ∀ e ∈ outer, Relays trace e.ask e.reply := by
  obtain ⟨outer, houter, hparts⟩ := Program.yields_handle hy
  refine ⟨outer, houter, fun e he => ?_⟩
  obtain ⟨part, hpart, hyields⟩ := hparts e he
  exact relays_of_yields hwhich ((demand.asks_work rounds).of_yields houter e he) hyields hpart

variable {answer : (q : Watch.Ask γ) → σ → Watch.Reply γ q × σ} {given : σ → Prop}
  {cache : OutputCache} {s : σ}

theorem Session.sound (hwhich : ∀ what, what.isRollup = true → which what = true)
    (h : Session answer given backoff which cache s) : cache.Sound := by
  induction h with
  | start h => exact sound_of h
  | idle _ _ ih => exact ih
  | @turn _ _ _ _ demand rounds _ _ run ih =>
    obtain ⟨outer, houter, hrelays⟩ := Demand.relayed hwhich (Program.yields_of_run run)
    exact (demand.keeps_sound rounds).of_yields ih houter hrelays

theorem Session.spares (hwhich : ∀ what, what.isRollup = true → which what = true)
    (h : Session answer given backoff which cache s) {demand : Demand} {rounds : Nat}
    {result : Except Fault (List Rollup.Output)} {cache' : OutputCache} {t : σ}
    (hrun : ((demand.work rounds).retrying backoff which cache).run answer s =
      some ((result, cache'), t)) :
    let trace := ((demand.work rounds).retrying backoff which cache).exchanges answer s
    Spares cache (Obtained trace) (demand.MayFail trace) result cache' := by
  obtain ⟨outer, houter, hrelays⟩ := Demand.relayed hwhich (Program.yields_of_run hrun)
  exact (demand.upholds_spares (h.sound hwhich) rounds).of_yields houter hrelays

/-- What the signal does to the run of a demand on a cache. -/
structure Heeded (answer : (q : Watch.Ask γ) → σ → Watch.Reply γ q × σ) (given : σ → Prop)
    (demand : Demand) (cache : OutputCache)
    (run : Program (Watch γ) (Except Fault (List Rollup.Output) × OutputCache)) (s : σ) : Prop where
  /-- No request is made once the signal is given. -/
  fetches : ∀ e ∈ run.encounters answer s, e.1.isFetch = true → ¬ given e.2
  /-- So none at all if it is given before. -/
  silent : given s → requests (run.exchanges answer s) = []
  returns : given (run.final answer s) → ∃ result cache' t,
    run.run answer s = some ((result, cache'), t)
  answered : ∀ outputs cache' t, run.run answer s = some ((.ok outputs, cache'), t) →
    ∀ output ∈ outputs, cache.Caches output ∨ Obtained (run.exchanges answer s) output
  failed : ∀ fault cache' t, run.run answer s = some ((.error fault, cache'), t) →
    demand.MayFail (run.exchanges answer s) fault
  spared : ∀ fault cache' t, run.run answer s = some ((.error fault, cache'), t) →
    cache'.table.entries.Perm cache.table.entries

/-- However the demands on a cache went before: no request is made after the signal to stop, and
once that is given the next demand ends. Its outputs were cached before or come from a request that
it made; its fault is a cancellation, or, of a demand for one output, that of more failures than
there is time for, and leaves what is cached as it was. -/
theorem signal_heeded (hann : Announces answer given)
    (hwhich : ∀ what, what.isRollup = true → which what = true) (hleast : 0 < backoff.least)
    (hgreatest : 0 < backoff.greatest) (hsession : Session answer given backoff which cache s)
    {rounds : Nat} (hrounds : 0 < rounds) (demand : Demand) :
    Heeded answer given demand cache ((demand.work rounds).retrying backoff which cache) s := by
  have hheeds := demand.heeds_work hann hwhich hleast hgreatest hrounds cache s
  constructor
  · exact hheeds.fetches
  · intro hgiven
    refine List.filter_eq_nil_iff.mpr fun e he hfetch => ?_
    have hmet := List.mem_map_of_mem (f := Exchange.ask) he
    rw [← Program.map_fst_encounters] at hmet
    obtain ⟨met, hmem, hask⟩ := List.mem_map.mp hmet
    refine hheeds.fetches met hmem (hask ▸ hfetch) ?_
    exact Program.of_mem_encounters hann.lasts hgiven met hmem
  · intro hgiven
    cases hrun : ((demand.work rounds).retrying backoff which cache).run answer s with
    | none => exact absurd hgiven (hheeds.returns hrun)
    | some outcome => exact ⟨outcome.1.1, outcome.1.2, outcome.2, rfl⟩
  · exact fun outputs cache' t hrun => hsession.spares hwhich hrun
  · exact fun fault cache' t hrun => (hsession.spares hwhich hrun).1
  · exact fun fault cache' t hrun => (hsession.spares hwhich hrun).2

namespace Sample

/-! ## A node that is never heard of again

The signal to stop is given during the first request. -/

def silentNode : (q : Watch.Ask Unit) → Nat → Watch.Reply Unit q × Nat
  | .fetch _, n => (none, n + 1)
  | .read .., n | .validate _, n | .submit .., n => (.error Cause.cancelled, n)
  | .now, n => (0, n)
  | .stopping, n | .pause .., n => (decide (0 < n), n)
  | .notify _, n => ((), n)

theorem announces_silentNode : Announces silentNode (0 < ·) where
  lasts q n hn := by
    cases q with
    | fetch what => exact Nat.succ_pos n
    | _ => exact hn
  stopping _ := decide_eq_true_iff
  pause _ _ _ _ := decide_eq_true_iff
  cut _ n _ := Nat.succ_pos n

theorem session_silentNode : Session silentNode (0 < ·) {} Fetch.isRollup cold 0 :=
  .start (show OutputCache.of 4 60 = .ok cold from rfl) 0

end Sample

open Sample in
/-- A range of two blocks is not had, by a cancellation after one request, and nothing is cached. -/
theorem signal_heeded_sample : ∃ fault cache' t,
    (((Demand.ofRange range).work 1).retrying {} Fetch.isRollup cold).run silentNode 0 =
      some ((.error fault, cache'), t) ∧
    fault.isCancelled = true ∧ cache'.table.entries = [] := by
  have hheeded := signal_heeded announces_silentNode (fun _ h => h) (by decide) (by decide)
    session_silentNode Nat.one_pos (.ofRange range)
  have hfails : ((((Demand.ofRange range).work 1).retrying {} Fetch.isRollup cold).run
      silentNode 0).map (·.1.1.isOk) = some false := by decide +kernel
  obtain ⟨⟨⟨fault | outputs, cache'⟩, t⟩, hwhole, hfault⟩ := Option.map_eq_some_iff.mp hfails
  · refine ⟨fault, cache', t, hwhole, ?_, (hheeded.spared _ _ _ hwhole).eq_nil⟩
    refine (hheeded.failed _ _ _ hwhole).resolve_right fun hone => ?_
    obtain ⟨⟨block, hblock⟩, -⟩ := hone
    cases hblock
  · cases hfault

end Watchtower
