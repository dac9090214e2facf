import Mathlib.Data.List.Basic
import Watchtower.Proofs.Loading
import Watchtower.Proofs.Recent
import Watchtower.Proofs.Traces

/-!
# What a load asks and leaves behind, whatever it is answered

* `cache.hits blocks`, `cache.absent blocks` : what is cached of some blocks, and the others;
* `cache.used blocks`, `cache.storing outputs` : the cache after uses and after insertions;
* `taken_perm`, `map_number_taken` : of an answer, the first output for each requested block is
  taken, in the order of the answer;
* `failedBatch blocks fault` : an attempt at a batch that is followed by another one;
* `Fetches rounds missing trace outputs` : the exchanges that bring the outputs for missing blocks,
  and which outputs these are;
* `yields_loadOne_ok_iff`, `yields_loadRange_ok_iff` : all that a load which is met can do, with its
  exchanges in full.
-/

namespace Watchtower

open Work

variable {γ : Type} {cache cache' : OutputCache} {trace : List (Exchange (Watch γ))}

/-- What a program meets in surroundings is also what each of its traces there ends in. -/
theorem Program.Meets.and_yields {I : Interface} {α : Type} {rely : I.Rely} {p : Program I α}
    {post : Option α → Prop} {post' : α → Prop} (h : p.Meets rely post)
    (hy : ∀ trace a, p.Yields trace a → (∀ e ∈ trace, rely e.ask e.reply) → post' a) :
    p.Meets rely fun outcome => post outcome ∧ ∀ a, outcome = some a → post' a := by
  induction p with
  | done a => exact ⟨h, fun _ he => Option.some.inj he ▸ hy [] a (.done a) (List.forall_mem_nil _)⟩
  | ask q next ih =>
    refine fun reply hr => ih reply (h reply hr) fun trace a hyields hrely => ?_
    exact hy (⟨q, reply⟩ :: trace) a (.ask hyields) (List.forall_mem_cons.mpr ⟨hr, hrely⟩)
  | stuck => exact ⟨h, nofun⟩

namespace Work

variable {α β : Type}

/-- Work that ends with a value ends as its traces do. -/
theorem Delivers.of_yields {rely : (Watch γ).Rely} {x : Work γ α} {post : α → OutputCache → Prop}
    (h : x.Delivers rely cache fun _ _ => True)
    (hy : ∀ trace a c, x.Yields cache trace (.ok a) c → (∀ e ∈ trace, rely e.ask e.reply) →
      post a c) : x.Delivers rely cache post := by
  have hyields (trace : List (Exchange (Watch γ))) (outcome : Except Fault α × OutputCache)
      (hrun : (x cache).Yields trace outcome) (hrely : ∀ e ∈ trace, rely e.ask e.reply) :
      ∀ a, outcome.1 = .ok a → post a outcome.2 :=
    fun a he => hy trace a outcome.2 (he ▸ hrun) hrely
  refine (Program.Meets.and_yields h hyields).imp ?_
  rintro (_ | ⟨_ | a, c⟩) ⟨hends, hpost⟩
  · exact hends
  · exact hends
  · exact hpost _ rfl a rfl

theorem yields_ask_then_iff {q : Watch.Ask γ} {f : Watch.Reply γ q → Work γ β}
    {result : Except Fault β} :
    (ask q >>= f).Yields cache trace result cache' ↔
      ∃ reply rest, trace = ⟨q, reply⟩ :: rest ∧ (f reply).Yields cache rest result cache' :=
  Program.yields_ask_iff

end Work

namespace OutputCache

theorem yields_checkpoint_then_iff {β : Type} {f : Unit → Work γ β} {b : β} :
    (checkpoint >>= f).Yields cache trace (.ok b) cache' ↔
      ∃ rest, trace = ⟨.stopping, false⟩ :: rest ∧ (f ()).Yields cache rest (.ok b) cache' := by
  unfold checkpoint
  rw [Work.bind_assoc, yields_ask_then_iff]
  constructor
  · rintro ⟨stopping, rest, rfl, h⟩
    cases stopping with
    | false => exact ⟨rest, rfl, h⟩
    | true => cases h
  · rintro ⟨rest, rfl, h⟩
    exact ⟨false, rest, rfl, h⟩

/-! ## Lookups -/

def hits (cache : OutputCache) (blocks : List UInt64) : List Rollup.Output :=
  blocks.filterMap cache.table.peek?

def absent (cache : OutputCache) (blocks : List UInt64) : List UInt64 :=
  blocks.filter (· ∉ cache.table.keys)

def used (cache : OutputCache) (blocks : List UInt64) : OutputCache :=
  { cache with table := cache.table.useAll blocks }

def storing (cache : OutputCache) (outputs : List Rollup.Output) : OutputCache :=
  { cache with table := cache.table.insertAll (outputs.map fun o => (o.number, o)) }

theorem hits_used_singleton (cache : OutputCache) (block : UInt64) (blocks : List UInt64) :
    (cache.used [block]).hits blocks = cache.hits blocks :=
  List.filterMap_congr fun b _ => Recency.peek?_get? cache.table block b

theorem absent_used_singleton (cache : OutputCache) (block : UInt64) (blocks : List UInt64) :
    (cache.used [block]).absent blocks = cache.absent blocks :=
  List.filter_congr fun b _ => decide_eq_decide.mpr
    (not_congr (Recency.mem_keys_get? cache.table block b))

theorem lookup_apply (block : UInt64) (cache : OutputCache) :
    (lookup block : Work γ _) cache = .done (.ok (cache.table.peek? block), cache.used [block]) := by
  rw [← Recency.fst_get?]
  rfl

theorem lookupAll_apply (blocks : List UInt64) (cache : OutputCache) :
    (lookupAll blocks : Work γ _) cache =
      .done (.ok (cache.hits blocks, cache.absent blocks), cache.used blocks) := by
  induction blocks generalizing cache with
  | nil => rfl
  | cons block blocks ih =>
    unfold lookupAll
    rw [bind_apply, lookup_apply, Program.done_bind]
    dsimp only
    rw [bind_apply, ih, Program.done_bind, hits_used_singleton, absent_used_singleton]
    cases hfound : cache.table.peek? block with
    | none =>
      have habsent := (cache.table.peek?_eq_none_iff block).mp hfound
      unfold hits absent
      rw [List.filterMap_cons_none hfound, List.filter_cons_of_pos (by simpa using habsent)]
      rfl
    | some output =>
      have hcached := Recency.mem_keys_of_peek? hfound
      unfold hits absent
      rw [List.filterMap_cons_some hfound, List.filter_cons_of_neg (by simpa using hcached)]
      rfl

/-! ## What is taken of an answer -/

/-- The first output in an answer that carries the number of a block. -/
def firstFor (response : List Rollup.Output) (block : UInt64) : Option Rollup.Output :=
  response.find? fun o => o.number = block

theorem number_of_firstFor {response : List Rollup.Output} {block : UInt64} {output : Rollup.Output}
    (h : firstFor response block = some output) : output.number = block := by
  simpa using List.find?_some h

theorem taken_perm {requested : List UInt64} (hn : requested.Nodup)
    (response : List Rollup.Output) :
    (taken requested response).Perm (requested.filterMap (firstFor response)) := by
  induction response generalizing requested with
  | nil =>
    have hnone : requested.filterMap (firstFor []) = [] :=
      List.filterMap_eq_nil_iff.mpr fun _ _ => rfl
    rw [hnone]
    exact .nil
  | cons output response ih =>
    -- For all blocks but its own the first output says nothing.
    have later {blocks : List UInt64} (hb : ∀ block ∈ blocks, output.number ≠ block) :
        blocks.filterMap (firstFor (output :: response)) = blocks.filterMap (firstFor response) :=
      List.filterMap_congr fun block hm => List.find?_cons_of_neg (by simpa using hb block hm)
    rw [taken]
    split
    · next hm =>
      have hown : firstFor (output :: response) output.number = some output :=
        List.find?_cons_of_pos (by simp)
      refine .trans ?_ ((List.perm_cons_erase hm).filterMap _).symm
      rw [List.filterMap_cons_some hown, later fun block hb => ?_]
      · exact (ih (hn.erase _)).cons output
      · exact Ne.symm ((hn.mem_erase_iff.mp hb).1)
    · next hm =>
      rw [later fun block hb he => hm (he ▸ hb)]
      exact ih hn

/-- Each block comes when its first output does. -/
theorem map_number_taken {requested : List UInt64} (hn : requested.Nodup)
    (response : List Rollup.Output) :
    (taken requested response).map Rollup.Output.number =
      ((response.map Rollup.Output.number).filter (· ∈ requested)).eraseDups := by
  induction response generalizing requested with
  | nil => rfl
  | cons output response ih =>
    rw [taken, List.map_cons]
    split
    · next hm =>
      rw [List.filter_cons_of_pos (by simpa using hm), List.eraseDups_cons, List.map_cons,
        ih (hn.erase _), List.filter_filter]
      refine congrArg (output.number :: List.eraseDups ·) (List.filter_congr fun block _ => ?_)
      simp [hn.mem_erase_iff, Bool.beq_eq_decide_eq]
    · next hm => rw [List.filter_cons_of_neg (by simpa using hm), ih hn]

theorem length_taken_le (requested : List UInt64) (response : List Rollup.Output) :
    (taken requested response).length ≤ response.length := by
  induction response generalizing requested with
  | nil => exact Nat.le_refl 0
  | cons output response ih =>
    rw [taken]
    split
    · exact Nat.succ_le_succ (ih _)
    · exact Nat.le_succ_of_le (ih _)

/-- As many notices as outputs that are not taken. -/
def drops (requested : List UInt64) (response : List Rollup.Output) : List (Exchange (Watch γ)) :=
  List.replicate (response.length - (taken requested response).length) ⟨.notify .outputDropped, ()⟩

theorem yields_accept_iff {response accepted : List Rollup.Output} {requested : List UInt64} :
    (accept requested response).Yields cache trace (.ok accepted) cache' ↔
      trace = drops requested response ∧ accepted = taken requested response ∧
        cache' = cache.storing (taken requested response) := by
  induction response generalizing cache cache' requested trace accepted with
  | nil =>
    rw [accept, yields_pure_iff, Except.ok.injEq]
    rfl
  | cons output response ih =>
    have hlength := length_taken_le requested response
    rw [accept]
    unfold drops
    rw [taken]
    split
    · change (accept _ response >>= fun rest => pure (output :: rest)).Yields
        (cache.storing [output]) trace (.ok accepted) cache' ↔ _
      simp only [yields_bind_ok_iff, yields_pure_iff, ih]
      rw [List.length_cons, List.length_cons, Nat.add_sub_add_right]
      constructor
      · rintro ⟨rest, c, first, _, rfl, ⟨rfl, rfl, rfl⟩, rfl, he, rfl⟩
        exact ⟨List.append_nil _, Except.ok.inj he, rfl⟩
      · rintro ⟨rfl, rfl, rfl⟩
        exact ⟨_, _, _, [], (List.append_nil _).symm, ⟨rfl, rfl, rfl⟩, rfl, rfl, rfl⟩
    · change (ask (.notify .outputDropped) >>= fun _ => accept requested response).Yields
        cache trace (.ok accepted) cache' ↔ _
      rw [List.length_cons, Nat.sub_add_comm hlength, List.replicate_succ]
      constructor
      · intro h
        obtain ⟨_, rest, rfl, hrest⟩ := yields_ask_then_iff.mp h
        obtain ⟨rfl, rfl, rfl⟩ := ih.mp hrest
        exact ⟨rfl, rfl, rfl⟩
      · rintro ⟨rfl, rfl, rfl⟩
        exact yields_ask_then_iff.mpr ⟨(), _, rfl, ih.mpr ⟨rfl, rfl, rfl⟩⟩

/-! ## Batches -/

/-- An attempt at a batch that fails, is reported, and is followed by another one. -/
def failedBatch (blocks : List UInt64) (fault : Fault) : List (Exchange (Watch γ)) :=
  [⟨.stopping, false⟩, ⟨.fetch (.outputs blocks), some (.error fault)⟩,
    ⟨.notify (.batchFailed fault), ()⟩, ⟨.stopping, false⟩, ⟨.pause batchRetryDelay 0, false⟩]

/-- The attempt that brings the batch. -/
def lastBatch (blocks : List UInt64) (response : List Rollup.Output) : List (Exchange (Watch γ)) :=
  [⟨.stopping, false⟩, ⟨.fetch (.outputs blocks), some (.ok response)⟩]

theorem yields_fetchBatch_iff {blocks : List UInt64} {rounds : Nat}
    {response : List Rollup.Output} :
    (fetchBatch blocks rounds).Yields cache trace (.ok response) cache' ↔
      cache' = cache ∧ ∃ faults : List Fault, faults.length < rounds ∧
        trace = faults.flatMap (failedBatch blocks) ++ lastBatch blocks response := by
  induction rounds generalizing trace with
  | zero =>
    refine iff_of_false (fun h => Program.not_yields_stuck h) ?_
    rintro ⟨-, faults, hlt, -⟩
    exact Nat.not_lt_zero _ hlt
  | succ rounds ih =>
    rw [fetchBatch, yields_checkpoint_then_iff]
    constructor
    · rintro ⟨_, rfl, hask⟩
      obtain ⟨reply, rest, rfl, h⟩ := yields_ask_then_iff.mp hask
      clear hask
      rcases reply with _ | fault | outputs
      · cases h
      · obtain ⟨_, _, rfl, hstop⟩ := yields_ask_then_iff.mp h
        obtain ⟨_, rfl, hpause⟩ := yields_checkpoint_then_iff.mp hstop
        clear h hstop
        obtain ⟨cut, _, rfl, h⟩ := yields_ask_then_iff.mp hpause
        clear hpause
        cases cut with
        | true => cases h
        | false =>
          obtain ⟨rfl, faults, hlt, rfl⟩ := ih.mp h
          exact ⟨rfl, fault :: faults, Nat.succ_lt_succ hlt, rfl⟩
      · obtain ⟨rfl, he, rfl⟩ := yields_pure_iff.mp h
        obtain rfl := Except.ok.inj he
        exact ⟨rfl, [], Nat.succ_pos _, rfl⟩
    · rintro ⟨rfl, faults, hlt, rfl⟩
      cases faults with
      | nil =>
        exact ⟨_, rfl, yields_ask_then_iff.mpr
          ⟨some (.ok response), [], rfl, yields_pure_iff.mpr ⟨rfl, rfl, rfl⟩⟩⟩
      | cons fault faults =>
        refine ⟨_, rfl, yields_ask_then_iff.mpr ⟨some (.error fault), _, rfl, ?_⟩⟩
        refine yields_ask_then_iff.mpr ⟨(), _, rfl, yields_checkpoint_then_iff.mpr ⟨_, rfl, ?_⟩⟩
        refine yields_ask_then_iff.mpr ⟨false, _, rfl, ?_⟩
        exact ih.mpr ⟨rfl, faults, Nat.lt_of_succ_lt_succ hlt, rfl⟩

/-! ## Loads -/

/-- A use of a block that is not there does nothing. -/
theorem used_of_peek?_eq_none {block : UInt64} (h : cache.table.peek? block = none) :
    cache.used [block] = cache := by
  change { cache with table := (cache.table.get? block).2 } = cache
  unfold Recency.get?
  rw [h]

/-- What is cached is used. What is not is fetched, and stored under the number that it carries. -/
theorem yields_loadOne_ok_iff {block : UInt64} {output : Rollup.Output} :
    (loadOne block).Yields cache trace (.ok output) cache' ↔
      (cache.table.peek? block = some output ∧ trace = [] ∧ cache' = cache.used [block]) ∨
      (cache.table.peek? block = none ∧
        trace = [⟨.stopping, false⟩, ⟨.fetch (.output block), some (.ok output)⟩] ∧
        cache' = cache.storing [output]) := by
  unfold loadOne Work.Yields
  rw [bind_apply, lookup_apply, Program.done_bind]
  cases hfound : cache.table.peek? block with
  | some found =>
    refine .trans (yields_pure_iff (γ := γ) (a := found)) ?_
    simp only [Except.ok.injEq, Option.some.injEq, reduceCtorEq, false_and, or_false]
    constructor
    · rintro ⟨rfl, rfl, rfl⟩
      exact ⟨rfl, rfl, rfl⟩
    · rintro ⟨rfl, rfl, rfl⟩
      exact ⟨rfl, rfl, rfl⟩
  | none =>
    rw [used_of_peek?_eq_none hfound]
    refine .trans yields_checkpoint_then_iff ?_
    simp only [reduceCtorEq, false_and, false_or, true_and]
    constructor
    · rintro ⟨_, rfl, h⟩
      unfold fetch at h
      rw [Work.bind_assoc] at h
      obtain ⟨reply, _, rfl, hreply⟩ := yields_ask_then_iff.mp h
      clear h
      rcases reply with _ | fault | found
      · cases hreply
      · cases hreply
      · obtain ⟨rfl, he, rfl⟩ := (yields_pure_iff (γ := γ) (a := found)).mp hreply
        obtain rfl := Except.ok.inj he
        exact ⟨rfl, rfl⟩
    · rintro ⟨rfl, rfl⟩
      refine ⟨_, rfl, ?_⟩
      unfold fetch
      rw [Work.bind_assoc]
      refine yields_ask_then_iff.mpr ⟨some (.ok output), [], rfl, ?_⟩
      exact (yields_pure_iff (γ := γ) (a := output)).mpr ⟨rfl, rfl, rfl⟩

/-- The exchanges that bring outputs for missing blocks, in at most so many rounds, and which. -/
inductive Fetches (rounds : Nat) :
    List UInt64 → List (Exchange (Watch γ)) → List Rollup.Output → Prop
  | nothing : Fetches rounds [] [] []
  | batch {missing : List UInt64} (hne : missing ≠ []) {faults : List Fault}
      (hfaults : faults.length < rounds) (response : List Rollup.Output) :
      Fetches rounds missing
        (faults.flatMap (failedBatch missing) ++ lastBatch missing response ++
          drops missing response)
        (taken missing response)

theorem yields_loadMissing_ok_iff {rounds : Nat} {missing : List UInt64}
    {fetched : List Rollup.Output} :
    (loadMissing rounds missing).Yields cache trace (.ok fetched) cache' ↔
      Fetches rounds missing trace fetched ∧ cache' = cache.storing fetched := by
  unfold loadMissing
  split
  · next he =>
    obtain rfl := List.isEmpty_iff.mp he
    rw [yields_pure_iff, Except.ok.injEq]
    constructor
    · rintro ⟨rfl, rfl, rfl⟩
      exact ⟨.nothing, rfl⟩
    · rintro ⟨h, rfl⟩
      cases h with
      | nothing => exact ⟨rfl, rfl, rfl⟩
      | batch hne => exact absurd rfl hne
  · next hne =>
    simp only [yields_bind_ok_iff, yields_fetchBatch_iff, yields_accept_iff]
    constructor
    · rintro ⟨response, _, _, _, rfl, ⟨rfl, faults, hfaults, rfl⟩, rfl, rfl, rfl⟩
      exact ⟨.batch (fun he => hne (List.isEmpty_iff.mpr he)) hfaults response, rfl⟩
    · rintro ⟨h, rfl⟩
      cases h with
      | nothing => exact absurd rfl hne
      | batch _ hfaults response =>
        exact ⟨response, cache, _, _, rfl, ⟨rfl, _, hfaults, rfl⟩, rfl, rfl, rfl⟩

/-- A warning if there are not as many outputs as positions. -/
def shortage (range : Game.Range) (outputs : List Rollup.Output) : List (Exchange (Watch γ)) :=
  if outputs.length ≠ range.positionCount then [⟨.notify .outputsMissing, ()⟩] else []

theorem yields_arrange_iff {range : Game.Range} {outputs : List Rollup.Output}
    {result : Except Fault (List Rollup.Output)} :
    (arrange range outputs).Yields cache trace result cache' ↔
      trace = shortage range outputs ∧ result = .ok (ascending outputs) ∧ cache' = cache := by
  unfold arrange shortage
  split
  · constructor
    · intro h
      obtain ⟨_, _, rfl, hrest⟩ := yields_ask_then_iff.mp h
      obtain ⟨rfl, rfl, rfl⟩ := yields_pure_iff.mp hrest
      exact ⟨rfl, rfl, rfl⟩
    · rintro ⟨rfl, rfl, rfl⟩
      exact yields_ask_then_iff.mpr ⟨(), [], rfl, yields_pure_iff.mpr ⟨rfl, rfl, rfl⟩⟩
  · exact yields_pure_iff

/-- What is cached is used first, and then what is fetched is stored. -/
theorem yields_loadRange_ok_iff {rounds : Nat} {range : Game.Range}
    {outputs : List Rollup.Output} :
    (loadRange rounds range).Yields cache trace (.ok outputs) cache' ↔
      ∃ fetching fetched, Fetches rounds (cache.absent range.positions) fetching fetched ∧
        trace = fetching ++ shortage range (cache.hits range.positions ++ fetched) ∧
        outputs = ascending (cache.hits range.positions ++ fetched) ∧
        cache' = (cache.used range.positions).storing fetched := by
  unfold loadRange Work.Yields
  rw [bind_apply, lookupAll_apply, Program.done_bind]
  refine .trans yields_bind_ok_iff ?_
  simp only [yields_loadMissing_ok_iff, yields_arrange_iff, Except.ok.injEq]
  constructor
  · rintro ⟨fetched, _, fetching, _, rfl, ⟨h, rfl⟩, rfl, rfl, rfl⟩
    exact ⟨fetching, fetched, h, rfl, rfl, rfl⟩
  · rintro ⟨fetching, fetched, h, rfl, rfl, rfl⟩
    exact ⟨fetched, _, fetching, _, rfl, ⟨h, rfl⟩, rfl, rfl, rfl⟩

end OutputCache

end Watchtower
