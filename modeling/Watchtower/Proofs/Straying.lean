import Watchtower.Proofs.Sifting

/-!
# Answers for another block than the one asked for

A batch is sifted, but the answer to a request for one output is taken as it is: it is returned, and
stored under the number that it carries.

* `Strays trace output` : the output answers a request for another block than its own;
* `AskedFor trace block` : the node was asked for the block, alone or in a batch;
* `keeps_origin` : what a use of the cache puts into it was asked for or strays;
* `own_block_iff` : so a single output is for the block demanded exactly if it does not stray;
* `other_block_taken` : and one that strays is returned and stored.
-/

namespace Watchtower

open Work OutputCache

section
variable {γ : Type} {capacity : Nat} {cache cache' : OutputCache}
  {trace : List (Exchange (Watch γ))} {block : UInt64} {output : Rollup.Output}

def Strays (trace : List (Exchange (Watch γ))) (output : Rollup.Output) : Prop :=
  ∃ block, block ≠ output.number ∧ ⟨.fetch (.output block), some (.ok output)⟩ ∈ trace

/-- The node was asked for the block. -/
inductive AskedFor (trace : List (Exchange (Watch γ))) (block : UInt64) : Prop
  | single {reply : Option (Except Fault Rollup.Output)}
      (h : ⟨.fetch (.output block), reply⟩ ∈ trace) : AskedFor trace block
  | batch {blocks : List UInt64} {reply : Option (Except Fault (List Rollup.Output))}
      (h : ⟨.fetch (.outputs blocks), reply⟩ ∈ trace) (hmem : block ∈ blocks) : AskedFor trace block

/-! ## What a use puts into the cache -/

/-- The output was cached for the block, or the block was asked for, or the output strays. -/
def Origin (before : OutputCache) (trace : List (Exchange (Watch γ))) (block : UInt64)
    (output : Rollup.Output) : Prop :=
  (block, output) ∈ before.table.entries ∨ AskedFor trace block ∨ Strays trace output

/-- The rely of surroundings that answer as in the trace. -/
def Among (trace : List (Exchange (Watch γ))) : (Watch γ).Rely := fun q reply => ⟨q, reply⟩ ∈ trace

theorem keeps_origin_loadOne (before : OutputCache) (trace : List (Exchange (Watch γ)))
    (block : UInt64) : (loadOne block).Keeps (Among trace) (Holds (Origin before trace)) := by
  intro cache hc
  refine Upholds.bind ((upholds_lookup hc block).imp ?_)
  rintro (fault | _ | output) c ⟨hc, -⟩
  · exact hc
  · refine Upholds.bind ((keeps_checkpoint c hc).imp ?_)
    rintro (fault | _) c hc
    · exact hc
    refine Upholds.bind (upholds_fetch ?_)
    rintro (_ | fault | output) hanswer
    · exact hc
    · exact hc
    have horigin : Origin before trace output.number output := by
      by_cases hown : block = output.number
      · exact .inr (.inl (.single (hown ▸ hanswer)))
      · exact .inr (.inr ⟨block, hown, hanswer⟩)
    refine Upholds.bind ((upholds_store hc horigin).imp ?_)
    rintro (fault | _) c hc <;> exact hc
  · exact hc

theorem keeps_origin_loadRange (before : OutputCache) (trace : List (Exchange (Watch γ)))
    (rounds : Nat) (range : Game.Range) :
    (loadRange rounds range).Keeps (Among trace) (Holds (Origin before trace)) := by
  intro cache hc
  have hlookups : (lookupAll range.positions).Upholds (Among trace) cache fun r c =>
      c.Holds (Origin before trace) ∧ IfValue (·.2.Nodup) r := by
    unfold Upholds
    rw [lookupAll_apply]
    exact ⟨fun e he => hc e (Recency.mem_entries_useAll he), nodup_absent cache range⟩
  refine Upholds.bind (hlookups.imp ?_)
  rintro (fault | ⟨hits, missing⟩) c ⟨hc, hn⟩
  · exact hc
  have hmissing : (loadMissing rounds missing).Upholds (Among trace) c fun _ c =>
      c.Holds (Origin before trace) := by
    refine (upholds_loadMissing (P := fun _ => True) rounds (fun _ => trivial) ?_ hc).imp
      fun _ _ h => h.1
    intro outputs hanswer
    refine ⟨fun o ho => .inr (.inl (.batch hanswer ?_)), trivial⟩
    exact (find?_of_mem_taken hn ho).2
  refine Upholds.bind (hmissing.imp ?_)
  rintro (fault | fetched) c hc
  · exact hc
  · exact upholds_arrange hc

/-- What a use puts into the cache was asked for or strays. -/
theorem keeps_origin {α : Type} {x : Work γ α} (use : Use x) (before : OutputCache)
    (trace : List (Exchange (Watch γ))) : x.Keeps (Among trace) (Holds (Origin before trace)) :=
  keeps_use (keeps_origin_loadOne before trace) (keeps_origin_loadRange before trace) use

/-! ## Single outputs -/

/-- A single output is stored under its number. -/
theorem mem_entries_of_yields_loadOne (hc : cache.Tidy capacity) (hcapacity : 0 < capacity)
    (h : (loadOne block).Yields cache trace (.ok output) cache') :
    (output.number, output) ∈ cache'.table.entries := by
  rcases yields_loadOne_ok_iff.mp h with ⟨hfound, -, rfl⟩ | ⟨-, -, rfl⟩
  · rw [hc.number_of_peek? hfound]
    exact (Recency.perm_get? hc.distinct block).symm.subset (Recency.mem_of_peek? hfound)
  · change _ ∈ (_ :: cache.table.without output.number).take cache.table.capacity
    rw [hc.capacity_eq, ← Nat.succ_pred_eq_of_pos hcapacity, List.take_succ_cons]
    exact List.mem_cons_self

theorem number_eq_iff (hc : cache.Tidy capacity)
    (h : (loadOne block).Yields cache trace (.ok output) cache') :
    output.number = block ↔ ¬ Strays trace output := by
  rcases yields_loadOne_ok_iff.mp h with ⟨hfound, rfl, -⟩ | ⟨-, rfl, -⟩
  · exact iff_of_true (hc.number_of_peek? hfound) fun ⟨_, _, hmem⟩ => nomatch hmem
  · constructor
    · rintro rfl ⟨asked, hne, hmem⟩
      rcases List.mem_pair.mp hmem with he | he
      · cases he
      · cases he
        exact hne rfl
    · intro hstays
      refine Classical.byContradiction fun hne => hstays ⟨block, Ne.symm hne, ?_⟩
      exact List.mem_cons_of_mem _ List.mem_cons_self

/-- Whatever a cache was used for before, and whatever the node answers, a single output is stored
under its number, and it is for the block demanded exactly if it is no answer for another block. And
whatever comes of any use, what it puts into the cache was asked for or is such an answer. -/
theorem own_block_iff {stride : UInt64} {fresh : OutputCache}
    (hof : OutputCache.of capacity stride = .ok fresh)
    (hbecomes : Becomes (γ := γ) (fun _ _ => True) fresh cache) :
    (∀ block (trace : List (Exchange (Watch γ))) output cache',
      (loadOne block).Yields cache trace (.ok output) cache' →
      (output.number, output) ∈ cache'.table.entries ∧
      (output.number = block ↔ ¬ Strays trace output)) ∧
    ∀ (α : Type) (x : Work γ α), Use x → ∀ trace result cache',
      x.Yields cache trace result cache' → ∀ e ∈ cache'.table.entries,
        e ∈ cache.table.entries ∨ AskedFor trace e.1 ∨ Strays trace e.2 := by
  have hc := hbecomes.tidy (tidy_of hof)
  constructor
  · intro block trace output cache' h
    exact ⟨mem_entries_of_yields_loadOne hc (capacity_pos_of hof) h, number_eq_iff hc h⟩
  · intro α x use trace result cache' h
    have hbefore : cache.Holds (Origin cache trace) := fun e he => .inl he
    exact (keeps_origin use cache trace).of_yields hbefore h fun e he => he

end

namespace Sample

/-- The output of block 1 in answer to a request for block 0. -/
def misled : List (Exchange (Watch Unit)) :=
  [⟨.stopping, false⟩, ⟨.fetch (.output 0), some (.ok (output 1))⟩]

theorem misled_taken :
    (loadOne 0).Yields narrow misled (.ok (output 1)) (narrow.storing [output 1]) :=
  yields_loadOne_ok_iff.mpr (.inr ⟨rfl, rfl, rfl⟩)

theorem one_not_askedFor : ¬ AskedFor misled 1 := by
  rintro (h | ⟨h, -⟩)
  · rcases List.mem_pair.mp h with h | h <;> cases h
  · rcases List.mem_pair.mp h with h | h <;> cases h

end Sample

open Sample in
theorem own_block_iff_sample : Strays misled (output 1) ∧
    (1, output 1) ∈ (narrow.storing [output 1]).table.entries := by
  obtain ⟨hsingle, -⟩ := own_block_iff (show OutputCache.of 1 1 = .ok narrow from rfl)
    (.same : Becomes (γ := Unit) _ narrow narrow)
  obtain ⟨hstored, hown⟩ := hsingle 0 misled (output 1) _ misled_taken
  refine ⟨Classical.byContradiction fun hstays => ?_, hstored⟩
  exact absurd (hown.mpr hstays) (by decide)

open Sample in
/-- Not every output is for the block demanded, and not all that is stored was asked for. -/
theorem other_block_taken :
    (¬ ∀ (cache cache' : OutputCache) (block : UInt64) (trace : List (Exchange (Watch Unit)))
      (output : Rollup.Output), Becomes (γ := Unit) (fun _ _ => True) narrow cache →
      (loadOne block).Yields cache trace (.ok output) cache' → output.number = block) ∧
    ¬ ∀ (cache cache' : OutputCache) (block : UInt64) (trace : List (Exchange (Watch Unit)))
      (output : Rollup.Output), Becomes (γ := Unit) (fun _ _ => True) narrow cache →
      (loadOne block).Yields cache trace (.ok output) cache' →
      ∀ e ∈ cache'.table.entries, e ∈ cache.table.entries ∨ AskedFor trace e.1 := by
  constructor
  · intro h
    exact absurd (h _ _ _ _ _ .same misled_taken) (by decide)
  · intro h
    rcases h _ _ _ _ _ .same misled_taken (1, output 1) List.mem_cons_self with h | h
    · cases h
    · exact one_not_askedFor h

end Watchtower
