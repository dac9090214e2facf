import Watchtower.OutputLoad
import Watchtower.Proofs.Positions
import Watchtower.Proofs.Triple

/-!
# Loading outputs from a node that serves good ones

`good block output` says which outputs are to be had for a block; it may be "the root is that of the
block", or "it is this very output". All good outputs for a block are to carry its number.

* `Serves good` : the rely of a node whose answers are good: of a batch, every output is good for
  the block that it names, and no block asked for is left out. The order is free, and outputs may
  be repeated or added;
* `Vouches good` : the rely of a node that can be trusted only with what is taken of its answers, and
  may leave blocks out; `Fills good` : of one that leaves none out. `Serves` is more than either;
* `cache.Holds good` : what the cache holds is good. Every operation keeps that;
* `taken requested outputs` : the outputs that `accept` takes from an answer;
* `upholds_loadOne`, `upholds_loadRange` : what is loaded is good, and for a range there is one
  output for each position, in order, whatever was cached and in whatever order the rest came;
* `upholds_loadOne_of`, `upholds_loadRange_of` : the same argument for any rely, from what it grants
  of the fetched outputs; `upholds_loadRange_filled` is its case for `Fills`;
* `delivers_loadOne`, `delivers_loadRange` : and it is loaded if no request fails.
-/

namespace Watchtower

/-- Every read and every request comes back with a value, and there is no signal to stop. -/
def Succeeds {γ : Type} : (Watch γ).Rely
  | .fetch _, reply => ∃ value, reply = some (.ok value)
  | .read _ _, reply => ∃ value, reply = .ok value
  | .stopping, stopping => stopping = false
  | _, _ => True

namespace OutputCache

open Work

variable {γ : Type} {rely : (Watch γ).Rely} {good : UInt64 → Rollup.Output → Prop}
  {cache : OutputCache}

def Serves (good : UInt64 → Rollup.Output → Prop) : (Watch γ).Rely
  | .fetch (.output block), some (.ok output) => good block output
  | .fetch (.outputs blocks), some (.ok outputs) =>
    (∀ o ∈ outputs, good o.number o) ∧ ∀ block ∈ blocks, ∃ o ∈ outputs, o.number = block
  | _, _ => True

/-- A single output is good for its block, and so is the first one in a batch that carries the number
of a block asked for. Blocks may be left out, and all else in a batch may be anything. -/
def Vouches (good : UInt64 → Rollup.Output → Prop) : (Watch γ).Rely
  | .fetch (.output block), some (.ok output) => good block output
  | .fetch (.outputs blocks), some (.ok outputs) =>
    ∀ block ∈ blocks, ∀ o, outputs.find? (fun o => o.number = block) = some o → good block o
  | _, _ => True

/-- No block asked for is left out of a batch. -/
def LeavesNoneOut : (Watch γ).Rely
  | .fetch (.outputs blocks), some (.ok outputs) => ∀ block ∈ blocks, ∃ o ∈ outputs, o.number = block
  | _, _ => True

def Fills (good : UInt64 → Rollup.Output → Prop) : (Watch γ).Rely :=
  fun q reply => Vouches good q reply ∧ LeavesNoneOut q reply

theorem vouches_of_serves {q : Watch.Ask γ} {reply : Watch.Reply γ q} (h : Serves good q reply) :
    Vouches good q reply := by
  cases q with
  | fetch what =>
    cases what with
    | output block => rcases reply with _ | fault | output <;> exact h
    | outputs blocks =>
      rcases reply with _ | fault | outputs
      · trivial
      · trivial
      · intro block _ o ho
        have hnumber : o.number = block := by simpa using List.find?_some ho
        rw [← hnumber]
        exact h.1 o (List.mem_of_find?_eq_some ho)
    | _ => trivial
  | _ => trivial

theorem fills_of_serves {q : Watch.Ask γ} {reply : Watch.Reply γ q} (h : Serves good q reply) :
    Fills good q reply := by
  refine ⟨vouches_of_serves h, ?_⟩
  cases q with
  | fetch what =>
    cases what with
    | outputs blocks =>
      rcases reply with _ | fault | outputs
      · trivial
      · trivial
      · exact h.2
    | _ => trivial
  | _ => trivial

def Holds (good : UInt64 → Rollup.Output → Prop) (cache : OutputCache) : Prop :=
  ∀ e ∈ cache.table.entries, good e.1 e.2

theorem holds_of {capacity : Nat} {stride : UInt64} (h : of capacity stride = .ok cache) :
    cache.Holds good := by
  unfold of at h
  split at h
  · cases h
  · split at h
    · cases h
    · obtain rfl := Except.ok.inj h
      exact fun e he => absurd he List.not_mem_nil

/-! ## Single operations -/

theorem upholds_lookup (hc : cache.Holds good) (block : UInt64) :
    (lookup block).Upholds rely cache fun r c =>
      c.Holds good ∧ IfValue (fun found => ∀ output, found = some output → good block output) r := by
  refine ⟨fun e he => hc e (Recency.mem_entries_get? he), fun output h => ?_⟩
  change (cache.table.get? block).1 = some output at h
  rw [Recency.fst_get?] at h
  exact hc _ (Recency.mem_of_peek? h)

theorem delivers_lookup (block : UInt64) : (lookup block).Delivers rely cache fun _ _ => True :=
  trivial

theorem upholds_store (hc : cache.Holds good) {output : Rollup.Output}
    (ho : good output.number output) :
    (store output).Upholds rely cache fun _ c => c.Holds good := by
  intro e he
  rcases Recency.mem_entries_insert he with rfl | he
  · exact ho
  · exact hc e he

theorem delivers_store (output : Rollup.Output) :
    (store output).Delivers rely cache fun _ _ => True := trivial

theorem keeps_checkpoint {inv : OutputCache → Prop} : checkpoint.Keeps rely inv := by
  refine (keeps_ask .stopping).bind fun stopping => ?_
  split
  · exact keeps_ofExcept (.error _)
  · exact keeps_pure _

theorem delivers_checkpoint : checkpoint.Delivers (Succeeds (γ := γ)) cache fun _ _ => True := by
  refine Delivers.bind (delivers_ask fun stopping hs => ?_)
  rw [show stopping = false from hs]
  exact delivers_pure trivial

/-- Of the node it is enough that a single output is good for its block. -/
theorem upholds_loadOne_of (numbered : ∀ block output, good block output → output.number = block)
    {block : UInt64}
    (hgood : ∀ output, rely (.fetch (.output block)) (some (.ok output)) → good block output)
    (hc : cache.Holds good) :
    (loadOne block).Upholds rely cache fun r c => c.Holds good ∧ IfValue (good block) r := by
  refine Upholds.bind ((upholds_lookup hc block).imp ?_)
  rintro (fault | _ | output) c ⟨hc, hfound⟩
  · exact ⟨hc, trivial⟩
  · refine Upholds.bind ((keeps_checkpoint c hc).imp ?_)
    rintro (fault | _) c hc
    · exact ⟨hc, trivial⟩
    · refine Upholds.bind (upholds_fetch ?_)
      rintro (_ | fault | output) hs
      · exact ⟨hc, trivial⟩
      · exact ⟨hc, trivial⟩
      · have hb : good block output := hgood output hs
        have ho : good output.number output := by rw [numbered _ _ hb]; exact hb
        refine Upholds.bind ((upholds_store hc ho).imp ?_)
        rintro (fault | _) c hc
        · exact ⟨hc, trivial⟩
        · exact upholds_pure ⟨hc, hb⟩
  · exact upholds_pure ⟨hc, hfound output rfl⟩

theorem upholds_loadOne_vouched
    (numbered : ∀ block output, good block output → output.number = block) (block : UInt64)
    (hc : cache.Holds good) :
    (loadOne block).Upholds (Vouches (γ := γ) good) cache fun r c =>
      c.Holds good ∧ IfValue (good block) r :=
  upholds_loadOne_of numbered (fun _ hs => hs) hc

theorem upholds_loadOne (numbered : ∀ block output, good block output → output.number = block)
    (block : UInt64) (hc : cache.Holds good) :
    (loadOne block).Upholds (Serves (γ := γ) good) cache fun r c =>
      c.Holds good ∧ IfValue (good block) r :=
  (upholds_loadOne_vouched numbered block hc).restrict fun _ _ => vouches_of_serves

theorem delivers_loadOne (block : UInt64) :
    (loadOne block).Delivers (Succeeds (γ := γ)) cache fun _ _ => True := by
  refine Delivers.bind ((delivers_lookup block).imp ?_)
  rintro (_ | output) c -
  · refine Delivers.bind (delivers_checkpoint.imp fun _ c _ => ?_)
    refine Delivers.bind (delivers_fetch fun reply hr => ?_)
    obtain ⟨output, rfl⟩ := hr
    exact ⟨output, rfl, Delivers.bind ((delivers_store output).imp fun _ _ _ => trivial)⟩
  · exact trivial

/-! ## Batches -/

theorem upholds_lookupAll (numbered : ∀ block output, good block output → output.number = block)
    (blocks : List UInt64) (hc : cache.Holds good) :
    (lookupAll blocks).Upholds rely cache fun r c => c.Holds good ∧
      IfValue (fun (hits, missing) => (∀ o ∈ hits, good o.number o) ∧
        (hits.map Rollup.Output.number ++ missing).Perm blocks) r := by
  induction blocks generalizing cache with
  | nil => exact upholds_pure ⟨hc, fun o ho => (nomatch ho), .refl _⟩
  | cons block blocks ih =>
    refine Upholds.bind ((upholds_lookup hc block).imp ?_)
    rintro (fault | found) c ⟨hc, hgood⟩
    · exact ⟨hc, trivial⟩
    refine Upholds.bind ((ih hc).imp ?_)
    rintro (fault | ⟨hits, missing⟩) c ⟨hc, hhits, hperm⟩
    · exact ⟨hc, trivial⟩
    cases found with
    | none => exact upholds_pure ⟨hc, hhits, List.perm_middle.trans (hperm.cons block)⟩
    | some output =>
      have hb := hgood output rfl
      have hn := numbered _ _ hb
      refine upholds_pure ⟨hc, List.forall_mem_cons.mpr ⟨by rw [hn]; exact hb, hhits⟩, ?_⟩
      rw [List.map_cons, hn]
      exact hperm.cons block

theorem delivers_lookupAll (blocks : List UInt64) :
    (lookupAll blocks).Delivers rely cache fun _ _ => True := by
  induction blocks generalizing cache with
  | nil => exact trivial
  | cons block blocks ih =>
    refine Delivers.bind ((delivers_lookup block).imp fun found c _ => ?_)
    refine Delivers.bind (ih.imp fun (hits, missing) c _ => ?_)
    cases found <;> exact trivial

/-- A batch that comes is one that the node answered; the cache is not used for it. -/
theorem upholds_fetchBatch (blocks : List UInt64) (rounds : Nat) :
    (fetchBatch blocks rounds).Upholds rely cache fun r c => c = cache ∧
      IfValue (fun outputs => rely (.fetch (.outputs blocks)) (some (.ok outputs))) r := by
  induction rounds with
  | zero => exact trivial
  | succ rounds ih =>
    have hkeeps : checkpoint.Keeps rely (· = cache) := keeps_checkpoint
    refine Upholds.bind ((hkeeps cache rfl).imp ?_)
    rintro (fault | _) c hc
    · exact ⟨hc, trivial⟩
    refine Upholds.bind (upholds_ask ?_)
    rintro (_ | fault | outputs) hs
    · exact ⟨hc, trivial⟩
    · refine Upholds.bind (upholds_ask fun _ _ => ?_)
      refine Upholds.bind ((hkeeps c hc).imp ?_)
      rintro (fault | _) c hc
      · exact ⟨hc, trivial⟩
      refine Upholds.bind (upholds_ask fun cut _ => ?_)
      cases cut with
      | true => exact ⟨hc, trivial⟩
      | false =>
        subst hc
        exact ih
    · exact upholds_pure ⟨hc, hs⟩

theorem delivers_fetchBatch (blocks : List UInt64) {rounds : Nat} (hr : 0 < rounds) :
    (fetchBatch blocks rounds).Delivers (Succeeds (γ := γ)) cache fun _ _ => True := by
  obtain ⟨rounds, rfl⟩ := Nat.exists_eq_succ_of_ne_zero (Nat.ne_of_gt hr)
  refine Delivers.bind (delivers_checkpoint.imp fun _ c _ => ?_)
  refine Delivers.bind (delivers_ask fun reply hs => ?_)
  obtain ⟨outputs, rfl⟩ := hs
  exact trivial

/-- What is taken of an answer: the first output for each requested block. -/
def taken : (requested : List UInt64) → List Rollup.Output → List Rollup.Output
  | _, [] => []
  | requested, output :: outputs =>
    if output.number ∈ requested then output :: taken (requested.erase output.number) outputs
    else taken requested outputs

theorem find?_of_mem_taken {outputs : List Rollup.Output} {requested : List UInt64}
    (hn : requested.Nodup) {o : Rollup.Output} (ho : o ∈ taken requested outputs) :
    outputs.find? (fun o' => o'.number = o.number) = some o ∧ o.number ∈ requested := by
  induction outputs generalizing requested with
  | nil => cases ho
  | cons output outputs ih =>
    have skip (hne : output.number ≠ o.number)
        (h : outputs.find? (fun o' => o'.number = o.number) = some o) :
        (output :: outputs).find? (fun o' => o'.number = o.number) = some o := by
      rw [List.find?_cons_of_neg (by simpa using hne), h]
    rw [taken] at ho
    split at ho
    · next hm =>
      rcases List.mem_cons.mp ho with rfl | ho
      · exact ⟨List.find?_cons_of_pos (by simp), hm⟩
      · obtain ⟨hfound, hrequested⟩ := ih (hn.erase output.number) ho
        rw [hn.mem_erase_iff] at hrequested
        exact ⟨skip hrequested.1.symm hfound, hrequested.2⟩
    · next hm =>
      obtain ⟨hfound, hrequested⟩ := ih hn ho
      refine ⟨skip (fun he => hm ?_) hfound, hrequested⟩
      rw [he]
      exact hrequested

/-- So it is good if the node is to be trusted with it. -/
theorem good_of_mem_taken {outputs : List Rollup.Output} {requested : List UInt64}
    (hn : requested.Nodup)
    (hs : Vouches (γ := γ) good (.fetch (.outputs requested)) (some (.ok outputs))) :
    ∀ o ∈ taken requested outputs, good o.number o := by
  intro o ho
  obtain ⟨hfound, hrequested⟩ := find?_of_mem_taken hn ho
  exact hs o.number hrequested o hfound

theorem perm_taken {outputs : List Rollup.Output} {requested : List UInt64}
    (hn : requested.Nodup) (hall : ∀ block ∈ requested, ∃ o ∈ outputs, o.number = block) :
    ((taken requested outputs).map Rollup.Output.number).Perm requested := by
  induction outputs generalizing requested with
  | nil =>
    cases requested with
    | nil => exact .nil
    | cons block requested =>
      obtain ⟨o, ho, -⟩ := hall block List.mem_cons_self
      cases ho
  | cons output outputs ih =>
    -- An output for another block than the first one's stands among the others.
    have later : ∀ block ∈ requested, block ≠ output.number → ∃ o ∈ outputs, o.number = block := by
      intro block hb hne
      obtain ⟨o, ho, rfl⟩ := hall block hb
      rcases List.mem_cons.mp ho with rfl | ho
      · exact absurd rfl hne
      · exact ⟨o, ho, rfl⟩
    rw [taken]
    split
    · next hm =>
      have hrest := ih (hn.erase output.number) fun block hb => by
        rw [hn.mem_erase_iff] at hb
        exact later block hb.2 hb.1
      exact (hrest.cons output.number).trans (List.perm_cons_erase hm).symm
    · next hm =>
      exact ih hn fun block hb => later block hb fun he => hm (he ▸ hb)

/-- Only what is taken is stored, so the rest of an answer need not be good. -/
theorem upholds_accept {outputs : List Rollup.Output} {requested : List UInt64}
    (ho : ∀ o ∈ taken requested outputs, good o.number o) (hc : cache.Holds good) :
    (accept requested outputs).Upholds rely cache fun r c =>
      c.Holds good ∧ IfValue (· = taken requested outputs) r := by
  induction outputs generalizing requested cache with
  | nil => exact upholds_pure ⟨hc, rfl⟩
  | cons output outputs ih =>
    rw [taken] at ho
    rw [accept, taken]
    split at ho
    · next hm =>
      rw [if_pos hm, if_pos hm]
      obtain ⟨hgood, ho⟩ := List.forall_mem_cons.mp ho
      refine Upholds.bind ((upholds_store hc hgood).imp ?_)
      rintro (fault | _) c hc
      · exact ⟨hc, trivial⟩
      refine Upholds.bind ((ih ho hc).imp ?_)
      rintro (fault | accepted) c ⟨hc, ha⟩
      · exact ⟨hc, trivial⟩
      · exact upholds_pure ⟨hc, congrArg (output :: ·) ha⟩
    · next hm =>
      rw [if_neg hm, if_neg hm]
      exact Upholds.bind (upholds_ask fun _ _ => ih ho hc)

theorem delivers_accept (outputs : List Rollup.Output) (requested : List UInt64) :
    (accept requested outputs).Delivers rely cache fun _ _ => True := by
  induction outputs generalizing requested cache with
  | nil => exact trivial
  | cons output outputs ih =>
    rw [accept]
    split
    · refine Delivers.bind ((delivers_store output).imp fun _ c _ => ?_)
      exact Delivers.bind ((ih _).imp fun _ _ _ => trivial)
    · exact Delivers.bind (delivers_ask fun _ _ => ih _)

/-! ## Ranges -/

theorem perm_ascending (outputs : List Rollup.Output) : (ascending outputs).Perm outputs :=
  List.mergeSort_perm _ _

theorem pairwise_ascending (outputs : List Rollup.Output) :
    ((ascending outputs).map Rollup.Output.number).Pairwise (· ≤ ·) := by
  rw [List.pairwise_map]
  refine (List.pairwise_mergeSort ?_ ?_ outputs).imp of_decide_eq_true
  · intro a b c hab hbc
    exact decide_eq_true (UInt64.le_trans (of_decide_eq_true hab) (of_decide_eq_true hbc))
  · intro a b
    rw [Bool.or_eq_true, decide_eq_true_eq, decide_eq_true_eq]
    exact UInt64.le_total a.number b.number

/-- Outputs for ascending blocks, one each, are put in the order of the blocks. -/
theorem map_number_ascending {outputs : List Rollup.Output} {blocks : List UInt64}
    (hs : blocks.Pairwise (· < ·)) (hp : (outputs.map Rollup.Output.number).Perm blocks) :
    (ascending outputs).map Rollup.Output.number = blocks :=
  (((perm_ascending outputs).map _).trans hp).eq_of_pairwise
    (fun _ _ _ _ => UInt64.le_antisymm) (pairwise_ascending outputs)
    (hs.imp fun h => UInt64.le_of_lt h)

/-- What is taken of an answer that the node may give is what is loaded. -/
theorem upholds_loadMissing {P : List Rollup.Output → Prop} (rounds : Nat) {missing : List UInt64}
    (hnone : missing = [] → P [])
    (htaken : ∀ outputs, rely (.fetch (.outputs missing)) (some (.ok outputs)) →
      (∀ o ∈ taken missing outputs, good o.number o) ∧ P (taken missing outputs))
    (hc : cache.Holds good) :
    (loadMissing rounds missing).Upholds rely cache fun r c => c.Holds good ∧
      IfValue (fun outputs => (∀ o ∈ outputs, good o.number o) ∧ P outputs) r := by
  unfold loadMissing
  split
  · next he =>
    exact upholds_pure ⟨hc, fun o ho => (nomatch ho), hnone (List.isEmpty_iff.mp he)⟩
  · refine Upholds.bind ((upholds_fetchBatch missing rounds).imp ?_)
    rintro (fault | outputs) c ⟨rfl, hanswer⟩
    · exact ⟨hc, trivial⟩
    obtain ⟨hgood, hp⟩ := htaken outputs hanswer
    refine (upholds_accept hgood hc).imp ?_
    rintro (fault | accepted) c ⟨hc, ha⟩
    · exact ⟨hc, trivial⟩
    · obtain rfl : accepted = taken missing outputs := ha
      exact ⟨hc, hgood, hp⟩

theorem upholds_arrange {post : Except Fault (List Rollup.Output) → OutputCache → Prop}
    {range : Game.Range} {outputs : List Rollup.Output} (h : post (.ok (ascending outputs)) cache) :
    (arrange range outputs).Upholds rely cache post := by
  unfold arrange
  split
  · exact Upholds.bind (upholds_ask fun _ _ => upholds_pure h)
  · exact upholds_pure h

/-- What is loaded for a range is what was cached of it and what `loadMissing` brings, in order. -/
theorem upholds_loadRange_of (numbered : ∀ block output, good block output → output.number = block)
    {P : List UInt64 → List Rollup.Output → Prop} (rounds : Nat) (range : Game.Range)
    (hmissing : ∀ (missing : List UInt64) (c : OutputCache), missing.Nodup → c.Holds good →
      (loadMissing rounds missing).Upholds rely c fun r c => c.Holds good ∧
        IfValue (fun outputs => (∀ o ∈ outputs, good o.number o) ∧ P missing outputs) r)
    (hc : cache.Holds good) :
    (loadRange rounds range).Upholds rely cache fun r c => c.Holds good ∧
      IfValue (fun outputs => (∀ o ∈ outputs, good o.number o) ∧ ∃ hits missing fetched,
        outputs = ascending (hits ++ fetched) ∧
        (hits.map Rollup.Output.number ++ missing).Perm range.positions ∧ P missing fetched) r := by
  refine Upholds.bind ((upholds_lookupAll numbered range.positions hc).imp ?_)
  rintro (fault | ⟨hits, missing⟩) c ⟨hc, hhits, hperm⟩
  · exact ⟨hc, trivial⟩
  have hn : missing.Nodup :=
    (List.nodup_append.mp (hperm.nodup_iff.mpr range.nodup_positions)).2.1
  refine Upholds.bind ((hmissing missing c hn hc).imp ?_)
  rintro (fault | fetched) c ⟨hc, hfetched, hp⟩
  · exact ⟨hc, trivial⟩
  refine upholds_arrange ⟨hc, fun o ho => ?_, hits, missing, fetched, rfl, hperm, hp⟩
  rcases List.mem_append.mp ((perm_ascending _).subset ho) with ho | ho
  · exact hhits o ho
  · exact hfetched o ho

/-- If the node leaves nothing out, nothing is missing. -/
theorem upholds_loadRange_filled
    (numbered : ∀ block output, good block output → output.number = block) (rounds : Nat)
    (range : Game.Range) (hc : cache.Holds good) :
    (loadRange rounds range).Upholds (Fills (γ := γ) good) cache fun r c => c.Holds good ∧
      IfValue (fun outputs => outputs.map Rollup.Output.number = range.positions ∧
        ∀ o ∈ outputs, good o.number o) r := by
  have hload : (loadRange rounds range).Upholds (Fills (γ := γ) good) cache _ :=
    upholds_loadRange_of numbered (P := fun missing outputs =>
      (outputs.map Rollup.Output.number).Perm missing) rounds range (fun missing c hn hc => by
      refine upholds_loadMissing rounds (fun he => by rw [he]; exact .nil) ?_ hc
      rintro outputs ⟨hs, hall⟩
      exact ⟨good_of_mem_taken hn hs, perm_taken hn hall⟩) hc
  refine hload.imp ?_
  rintro (fault | outputs) c ⟨hc, hvalue⟩
  · exact ⟨hc, trivial⟩
  obtain ⟨hgood, hits, missing, fetched, rfl, hperm, hp⟩ := hvalue
  have hall : ((hits ++ fetched).map Rollup.Output.number).Perm range.positions := by
    rw [List.map_append]
    exact (hp.append_left _).trans hperm
  exact ⟨hc, map_number_ascending range.pairwise_positions hall, hgood⟩

theorem upholds_loadRange (numbered : ∀ block output, good block output → output.number = block)
    (rounds : Nat) (range : Game.Range) (hc : cache.Holds good) :
    (loadRange rounds range).Upholds (Serves (γ := γ) good) cache fun r c => c.Holds good ∧
      IfValue (fun outputs => outputs.map Rollup.Output.number = range.positions ∧
        ∀ o ∈ outputs, good o.number o) r :=
  (upholds_loadRange_filled numbered rounds range hc).restrict fun _ _ => fills_of_serves

theorem delivers_loadRange {rounds : Nat} (hr : 0 < rounds) (range : Game.Range) :
    (loadRange rounds range).Delivers (Succeeds (γ := γ)) cache fun _ _ => True := by
  refine Delivers.bind ((delivers_lookupAll _).imp fun (hits, missing) c _ => ?_)
  have hmissing : (loadMissing rounds missing).Delivers (Succeeds (γ := γ)) c fun _ _ => True := by
    unfold loadMissing
    split
    · exact trivial
    · exact Delivers.bind ((delivers_fetchBatch missing hr).imp fun _ _ _ => delivers_accept _ _)
  refine Delivers.bind (hmissing.imp fun fetched c _ => ?_)
  unfold arrange
  split
  · exact Delivers.bind (delivers_ask fun _ _ => trivial)
  · exact trivial

end OutputCache

end Watchtower
