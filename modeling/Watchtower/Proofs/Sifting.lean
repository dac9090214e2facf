import Watchtower.Proofs.Gaps
import Watchtower.Proofs.Transcript

/-!
# What a load makes of any answer whatever

The node may answer with outputs for any blocks, in any order, with repeats and without some of the
blocks that it was asked for.

* `cache.choice response block` : what is cached for a block, or else what comes first for it in the
  answer;
* `cache.Tidy capacity` : the cache holds no more than there is room for, one output for a block, and
  under the number that the output carries. Each use of the cache keeps that (`Becomes.tidy`);
* `Sifts` : the outputs loaded are the choices for the positions of the range, and nothing else of the
  answer is stored (`sifts_taken`);
* `range_sifted` : so each load does in every cache that comes up.
-/

namespace Watchtower

open Work OutputCache

variable {γ : Type} {capacity : Nat} {cache cache' : OutputCache} {rely : (Watch γ).Rely}

/-! ## The cache -/

structure OutputCache.Tidy (capacity : Nat) (cache : OutputCache) : Prop where
  capacity_eq : cache.table.capacity = capacity
  bounded : cache.table.entries.length ≤ capacity
  /-- No block has two entries. -/
  distinct : cache.table.keys.Nodup
  numbered : ∀ e ∈ cache.table.entries, e.2.number = e.1

theorem tidy_of {stride : UInt64} (h : OutputCache.of capacity stride = .ok cache) :
    cache.Tidy capacity := by
  unfold OutputCache.of at h
  split at h
  · cases h
  · split at h
    · cases h
    · obtain rfl := Except.ok.inj h
      exact ⟨rfl, Nat.zero_le _, List.nodup_nil, fun _ he => nomatch he⟩

theorem capacity_pos_of {stride : UInt64} (h : OutputCache.of capacity stride = .ok cache) :
    0 < capacity := by
  unfold OutputCache.of at h
  split at h
  · cases h
  · next hne => exact Nat.pos_of_ne_zero hne

theorem keeps_tidy_lookup (block : UInt64) : (lookup block).Keeps rely (Tidy capacity) := by
  intro cache hc
  have hperm := Recency.perm_get? hc.distinct block
  exact ⟨(Recency.capacity_get? cache.table block).trans hc.capacity_eq,
    hperm.length_eq.le.trans hc.bounded, Recency.nodup_get? hc.distinct block,
    fun e he => hc.numbered e (hperm.subset he)⟩

theorem keeps_tidy_store (output : Rollup.Output) : (store output).Keeps rely (Tidy capacity) := by
  intro cache hc
  refine ⟨hc.capacity_eq, ?_, Recency.nodup_insert hc.distinct _ _, fun e he => ?_⟩
  · exact (List.length_take_le _ _).trans hc.capacity_eq.le
  · rcases Recency.mem_entries_insert he with rfl | he
    · rfl
    · exact hc.numbered e he

theorem keeps_tidy {α : Type} {x : Work γ α} (h : Use x) : x.Keeps rely (Tidy capacity) :=
  keeps_use
    (composes_keeps.loadOne keeps_tidy_lookup keeps_tidy_store (fun q _ => keeps_ask q))
    (composes_keeps.loadRange keeps_tidy_lookup keeps_tidy_store (fun q _ => keeps_ask q)
      keeps_stuck) h

theorem Becomes.tidy (h : Becomes rely cache cache') (hc : cache.Tidy capacity) :
    cache'.Tidy capacity := by
  induction h with
  | same => exact hc
  | used _ use run served ih =>
    have hkeeps : Work.Keeps rely (Tidy capacity) _ := keeps_tidy use
    exact hkeeps.of_yields ih run served

theorem OutputCache.Tidy.number_of_peek? (hc : cache.Tidy capacity) {block : UInt64}
    {output : Rollup.Output} (h : cache.table.peek? block = some output) :
    output.number = block :=
  hc.numbered _ (Recency.mem_of_peek? h)

/-! ## Choices -/

variable {response : List Rollup.Output}

def OutputCache.choice (cache : OutputCache) (response : List Rollup.Output) (block : UInt64) :
    Option Rollup.Output :=
  (cache.table.peek? block).or (firstFor response block)

theorem OutputCache.Tidy.number_of_choice (hc : cache.Tidy capacity) {block : UInt64}
    {output : Rollup.Output} (h : cache.choice response block = some output) :
    output.number = block := by
  rcases Option.or_eq_some_iff.mp h with h | ⟨-, h⟩
  · exact hc.number_of_peek? h
  · exact number_of_firstFor h

/-- What is cached, and what the answer has for the other blocks. -/
theorem perm_choice (cache : OutputCache) (response : List Rollup.Output) (blocks : List UInt64) :
    (cache.hits blocks ++ (cache.absent blocks).filterMap (firstFor response)).Perm
      (blocks.filterMap (cache.choice response)) := by
  induction blocks with
  | nil => exact .nil
  | cons block blocks ih =>
    unfold hits absent at *
    cases hfound : cache.table.peek? block with
    | some output =>
      have hcached := Recency.mem_keys_of_peek? hfound
      have hchoice : cache.choice response block = some output := by
        rw [choice, hfound, Option.some_or]
      rw [List.filterMap_cons_some hfound, List.filter_cons_of_neg (by simpa using hcached),
        List.filterMap_cons_some hchoice]
      exact ih.cons output
    | none =>
      have habsent := (cache.table.peek?_eq_none_iff block).mp hfound
      have hchoice : cache.choice response block = firstFor response block := by
        rw [choice, hfound, Option.none_or]
      rw [List.filterMap_cons_none hfound, List.filter_cons_of_pos (by simpa using habsent)]
      cases hfirst : firstFor response block with
      | none => rwa [List.filterMap_cons_none hfirst, List.filterMap_cons_none (hchoice.trans hfirst)]
      | some output =>
        rw [List.filterMap_cons_some hfirst, List.filterMap_cons_some (hchoice.trans hfirst)]
        exact List.perm_middle.trans (ih.cons output)

/-- Outputs that carry the numbers of their blocks stand in the order of the blocks. -/
theorem map_number_filterMap {f : UInt64 → Option Rollup.Output}
    (hf : ∀ block output, f block = some output → output.number = block) (blocks : List UInt64) :
    (blocks.filterMap f).map Rollup.Output.number = blocks.filter fun block => (f block).isSome := by
  induction blocks with
  | nil => rfl
  | cons block blocks ih =>
    cases hblock : f block with
    | none => rw [List.filterMap_cons_none hblock, List.filter_cons_of_neg (by simp [hblock]), ih]
    | some output =>
      rw [List.filterMap_cons_some hblock, List.filter_cons_of_pos (by simp [hblock]), List.map_cons,
        ih, hf block output hblock]

theorem ascending_eq_of_perm {outputs outputs' : List Rollup.Output} (hp : outputs.Perm outputs')
    (hs : (outputs'.map Rollup.Output.number).Pairwise (· < ·)) : ascending outputs = outputs' := by
  have hperm := (perm_ascending outputs).trans hp
  have hle := hs.imp fun h => UInt64.le_of_lt h
  have hnodup : (outputs'.map Rollup.Output.number).Nodup := hs.imp fun h => UInt64.ne_of_lt h
  refine hperm.eq_of_pairwise (fun a b ha hb hab hba => ?_)
    (List.pairwise_map.mp (pairwise_ascending outputs)) (List.pairwise_map.mp hle)
  exact List.inj_on_of_nodup_map hnodup (hperm.subset ha) hb (UInt64.le_antisymm hab hba)

/-! ## Loads -/

/-- What a load makes of an answer, and what it leaves in the cache. -/
structure Sifts (cache : OutputCache) (range : Game.Range) (response : List Rollup.Output)
    (outputs : List Rollup.Output) (cache' : OutputCache) : Prop where
  chosen : outputs = range.positions.filterMap (cache.choice response)
  ascending : (outputs.map Rollup.Output.number).Pairwise (· < ·)
  claimed : (outputs.map Rollup.Output.number).Sublist range.positions
  /-- What is new in the cache is what comes first for a position that was not cached. -/
  stored : ∀ e ∈ cache'.table.entries, e ∈ cache.table.entries ∨
    e.1 ∈ range.positions ∧ e.1 ∉ cache.table.keys ∧ firstFor response e.1 = some e.2

theorem nodup_absent (cache : OutputCache) (range : Game.Range) :
    (cache.absent range.positions).Nodup := range.nodup_positions.filter _

theorem sifts_taken (hc : cache.Tidy capacity) (range : Game.Range)
    (response : List Rollup.Output) :
    Sifts cache range response
      (OutputCache.ascending (cache.hits range.positions ++
        taken (cache.absent range.positions) response))
      ((cache.used range.positions).storing (taken (cache.absent range.positions) response)) := by
  have hn := nodup_absent cache range
  have hnumbers : (range.positions.filterMap (cache.choice response)).map Rollup.Output.number =
      range.positions.filter fun block => (cache.choice response block).isSome :=
    map_number_filterMap (fun _ _ h => hc.number_of_choice h) range.positions
  have hsorted : ((range.positions.filterMap (cache.choice response)).map
      Rollup.Output.number).Pairwise (· < ·) := by
    rw [hnumbers]
    exact range.pairwise_positions.filter _
  have hperm := ((taken_perm hn response).append_left (cache.hits range.positions)).trans
    (perm_choice cache response range.positions)
  rw [ascending_eq_of_perm hperm hsorted]
  refine ⟨rfl, hsorted, hnumbers ▸ List.filter_sublist, fun e he => ?_⟩
  rcases Recency.mem_entries_insertAll he with he | he
  · obtain ⟨output, houtput, rfl⟩ := List.mem_map.mp he
    obtain ⟨hfirst, habsent⟩ := find?_of_mem_taken hn houtput
    obtain ⟨hposition, hfresh⟩ := List.mem_filter.mp habsent
    exact .inr ⟨hposition, of_decide_eq_true hfresh, hfirst⟩
  · exact .inl (Recency.mem_entries_useAll he)

theorem taken_nil (response : List Rollup.Output) : taken [] response = [] := by
  induction response with
  | nil => rfl
  | cons output response ih => rw [taken, if_neg List.not_mem_nil, ih]

/-- What is fetched is taken of one answer, that to the batch if there is one. -/
theorem exists_response {rounds : Nat} {missing : List UInt64}
    {trace : List (Exchange (Watch γ))} {fetched : List Rollup.Output}
    (h : Fetches rounds missing trace fetched) :
    ∃ response, fetched = taken missing response ∧
      (missing ≠ [] → ⟨.fetch (.outputs missing), some (.ok response)⟩ ∈ trace) := by
  cases h with
  | nothing => exact ⟨[], rfl, fun hne => absurd rfl hne⟩
  | batch _ _ response =>
    refine ⟨response, rfl, fun _ => List.mem_append_left _ (List.mem_append_right _ ?_)⟩
    exact List.mem_cons_of_mem _ List.mem_cons_self

theorem sifts_of_yields (hc : cache.Tidy capacity) {rounds : Nat} {range : Game.Range}
    {trace : List (Exchange (Watch γ))} {outputs : List Rollup.Output}
    (h : (loadRange rounds range).Yields cache trace (.ok outputs) cache') :
    ∃ response, Sifts cache range response outputs cache' ∧
      (cache.absent range.positions ≠ [] →
        ⟨.fetch (.outputs (cache.absent range.positions)), some (.ok response)⟩ ∈ trace) := by
  obtain ⟨fetching, fetched, hfetches, rfl, rfl, rfl⟩ := yields_loadRange_ok_iff.mp h
  obtain ⟨response, rfl, hmem⟩ := exists_response hfetches
  exact ⟨response, sifts_taken hc range response, fun hne => List.mem_append_left _ (hmem hne)⟩

/-- The node answers each batch so. -/
def Brings (response : List Rollup.Output) : (Watch γ).Rely
  | .fetch (.outputs _), reply => reply = some (.ok response)
  | _, _ => True

/-- If nothing fails, a load is met. -/
theorem delivers_sifts (hc : cache.Tidy capacity) {rounds : Nat} (hrounds : 0 < rounds)
    (range : Game.Range) (response : List Rollup.Output) :
    (loadRange rounds range).Delivers
      (fun q reply => Succeeds (γ := γ) q reply ∧ Brings response q reply) cache
      (Sifts cache range response) := by
  refine ((delivers_loadRange hrounds range).restrict fun _ _ h => h.1).of_yields ?_
  intro trace outputs c h hrely
  obtain ⟨fetching, fetched, hfetches, rfl, rfl, rfl⟩ := yields_loadRange_ok_iff.mp h
  obtain ⟨answer, rfl, hmem⟩ := exists_response hfetches
  have htaken : taken (cache.absent range.positions) answer =
      taken (cache.absent range.positions) response := by
    by_cases hne : cache.absent range.positions = []
    · rw [hne, taken_nil, taken_nil]
    · have hbrings := (hrely _ (List.mem_append_left _ (hmem hne))).2
      rw [Except.ok.inj (Option.some.inj hbrings)]
  rw [htaken]
  exact sifts_taken hc range response

/-- Whatever a cache was used for before, and whatever the node answers, a load of a range gives the
choices for its positions in ascending order, and stores nothing but what it chose of the answer. It
is met if nothing fails. And whatever comes of any use, the cache stays tidy. -/
theorem range_sifted {stride : UInt64} {fresh : OutputCache}
    (hof : OutputCache.of capacity stride = .ok fresh)
    (hbecomes : Becomes (γ := γ) (fun _ _ => True) fresh cache) (rounds : Nat)
    (range : Game.Range) :
    (∀ (trace : List (Exchange (Watch γ))) outputs cache',
      (loadRange rounds range).Yields cache trace (.ok outputs) cache' →
      ∃ response, Sifts cache range response outputs cache' ∧
        (cache.absent range.positions ≠ [] →
          ⟨.fetch (.outputs (cache.absent range.positions)), some (.ok response)⟩ ∈ trace)) ∧
    (∀ response, 0 < rounds → (loadRange rounds range).Delivers
      (fun q reply => Succeeds (γ := γ) q reply ∧ Brings response q reply) cache
      (Sifts cache range response)) ∧
    cache.Tidy capacity ∧
    ∀ (α : Type) (x : Work γ α), Use x → ∀ trace result cache',
      x.Yields cache trace result cache' → cache'.Tidy capacity := by
  have hc := hbecomes.tidy (tidy_of hof)
  refine ⟨fun trace outputs cache' h => sifts_of_yields hc h,
    fun response hrounds => delivers_sifts hc hrounds range response, hc, ?_⟩
  intro α x use trace result cache' h
  exact (hbecomes.used use h fun _ _ => trivial).tidy (tidy_of hof)

namespace Sample

/-! ## A node that adds to its answers -/

/-- An output that nobody asked for, two different ones for block 1, and one for block 0. -/
def meddling : List Rollup.Output :=
  [output 5, output 1, { output 1 with root := .ofNat 9 }, output 0]

def meddled : Surroundings Unit Unit where
  chain := chain .zero .zero
  clock := 0
  node
    | .fetch (.outputs _), s => (some (.ok meddling), s)
    | q, s => node q s

theorem succeeds_meddled (q : Watch.Ask Unit) (s : Unit) : Succeeds q (meddled.answer q s).1 := by
  cases q with
  | fetch what => cases what <;> exact ⟨_, rfl⟩
  | read game what => cases what <;> exact ⟨_, rfl⟩
  | stopping => rfl
  | _ => trivial

theorem brings_meddled (q : Watch.Ask Unit) (s : Unit) :
    Brings meddling q (meddled.answer q s).1 := by
  cases q with
  | fetch what =>
    cases what with
    | outputs blocks => rfl
    | _ => trivial
  | _ => trivial

/-- There is room for one output. -/
def narrow : OutputCache := ⟨1, .empty 1⟩

end Sample

open Sample in
/-- Both outputs are loaded, each the first for its block, and nothing else is left in the cache. -/
theorem range_sifted_sample :
    ∃ c, (loadRange 1 range).Gives meddled narrow () [output 0, output 1] c () ∧
      c.table.entries.length ≤ 1 ∧ ∀ e ∈ c.table.entries, e.2 = output e.1 := by
  obtain ⟨-, hmet, -, htidy⟩ := range_sifted (show OutputCache.of 1 1 = .ok narrow from rfl)
    (.same : Becomes (γ := Unit) _ narrow narrow) 1 range
  have hrely : ∀ e ∈ ((loadRange 1 range : Work Unit _) narrow).exchanges meddled.answer (),
      Succeeds e.ask e.reply ∧ Brings meddling e.ask e.reply := fun e he =>
    ⟨Program.exchanges_rely succeeds_meddled e he, Program.exchanges_rely brings_meddled e he⟩
  obtain ⟨outputs, c, _, hgives, hsifts⟩ := (hmet meddling Nat.one_pos).gives hrely
  have hchosen := hsifts.chosen
  rw [positions_eq] at hchosen
  obtain rfl : outputs = [output 0, output 1] := hchosen
  refine ⟨c, hgives, ?_, fun e he => ?_⟩
  · exact (htidy _ _ (.loadRange 1 range) _ _ c (Program.yields_of_run hgives)).bounded
  · rcases hsifts.stored e he with h | ⟨hposition, -, hfirst⟩
    · cases h
    · rw [positions_eq] at hposition
      rcases List.mem_pair.mp hposition with h | h
      all_goals rw [h] at hfirst ⊢; exact (Option.some.inj hfirst).symm

end Watchtower
