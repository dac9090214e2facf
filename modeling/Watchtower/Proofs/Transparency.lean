import Watchtower.Proofs.Finding

/-!
# A cache in front of a node is not noticed

The node has one output `f block` for each block. Any of its answers may fail to come; a batch that
comes is complete, in any order.

* `Demand` : what is demanded of a cache, one output, those from a first block to a last one with
  the cache's own stride, or those of a range. `Demand.work` is how the cache meets it, and
  `Demand.direct` what a client without a cache has from the node;
* `Demands` : demands on one cache one after another;
* `demands_transparent` : whatever came before, and whatever is evicted meanwhile, a demand that is
  met is met as without a cache, and it is met if no answer fails to come.
-/

namespace Watchtower

open Work OutputCache

variable {γ : Type} {f : UInt64 → Rollup.Output} {stride : UInt64} {cache cache' : OutputCache}

inductive Demand
  | one (block : UInt64)
  | between (first last : UInt64)
  | ofRange (range : Game.Range)

namespace Demand

/-- A single output is given as a list of one. -/
def work (rounds : Nat) : Demand → Work γ (List Rollup.Output)
  | .one block => do return [← loadOne block]
  | .between first last => load rounds first last
  | .ofRange range => loadRange rounds range

/-- Every `stride`-th block from the first up to the last that is not past `last`. -/
def strided (first last stride : UInt64) : List UInt64 :=
  (List.range ((last.toNat - first.toNat) / stride.toNat + 1)).map fun k =>
    .ofNat (first.toNat + k * stride.toNat)

/-- The outputs that the node has for the blocks demanded. -/
def direct (f : UInt64 → Rollup.Output) (stride : UInt64) : Demand → List Rollup.Output
  | .one block => [f block]
  | .between first last => if last < first then [] else (strided first last stride).map f
  | .ofRange range => (strided range.first range.last range.stride).map f

end Demand

theorem Game.Range.positions_eq_strided (r : Range) :
    r.positions = Demand.strided r.first r.last r.stride := by
  rw [positions_eq_map, positionCount_eq]
  rfl

/-! ## One demand -/

/-- The one good output for a block. -/
def Exactly (f : UInt64 → Rollup.Output) (block : UInt64) (output : Rollup.Output) : Prop :=
  output = f block

/-- The cache has the stride that it was made with, and holds outputs of the node. -/
def OutputCache.Mirrors (f : UInt64 → Rollup.Output) (stride : UInt64) (cache : OutputCache) : Prop :=
  cache.Holds (Exactly f) ∧ cache.stride = stride

theorem mirrors_of {capacity : Nat} (h : OutputCache.of capacity stride = .ok cache) :
    cache.Mirrors f stride := by
  refine ⟨holds_of h, ?_⟩
  unfold OutputCache.of at h
  split at h
  · cases h
  · split at h
    · cases h
    · obtain rfl := Except.ok.inj h
      rfl

theorem exists_of {capacity : Nat} (hcapacity : 0 < capacity) (hstride : stride ≠ 0) :
    ∃ cache, OutputCache.of capacity stride = .ok cache :=
  ⟨_, (if_neg (Nat.ne_of_gt hcapacity)).trans (if_neg hstride)⟩

section
variable {rely : (Watch γ).Rely}

theorem keeps_stride_loadOne (block : UInt64) :
    (loadOne block).Keeps rely fun cache => cache.stride = stride :=
  composes_keeps.loadOne (fun _ _ hc => hc) (fun _ _ hc => hc) (fun q _ => keeps_ask q) block

theorem keeps_stride_loadRange (rounds : Nat) (range : Game.Range) :
    (loadRange rounds range).Keeps rely fun cache => cache.stride = stride :=
  composes_keeps.loadRange (fun _ _ hc => hc) (fun _ _ hc => hc) (fun q _ => keeps_ask q)
    keeps_stuck rounds range

end

/-- Of outputs of the node their numbers say which they are. -/
theorem eq_map_of_exactly {outputs : List Rollup.Output} {blocks : List UInt64}
    (hnumber : outputs.map Rollup.Output.number = blocks)
    (hexact : ∀ o ∈ outputs, Exactly f o.number o) : outputs = blocks.map f := by
  rw [← hnumber, List.map_map]
  exact (List.map_id outputs).symm.trans (List.map_congr_left hexact)

section
variable (numbered : ∀ block, (f block).number = block)
include numbered

theorem number_of_exactly (block : UInt64) (output : Rollup.Output) (h : Exactly f block output) :
    output.number = block := by
  rw [show output = f block from h, numbered]

theorem upholds_range (rounds : Nat) (range : Game.Range) (hc : cache.Mirrors f stride) :
    (loadRange rounds range).Upholds (Serves (γ := γ) (Exactly f)) cache fun r c =>
      c.Mirrors f stride ∧ IfValue (· = (Demand.ofRange range).direct f stride) r := by
  have hload : (loadRange rounds range).Upholds (Serves (γ := γ) (Exactly f)) cache _ :=
    upholds_loadRange (number_of_exactly numbered) rounds range hc.1
  refine (hload.and (keeps_stride_loadRange rounds range cache hc.2)).imp ?_
  rintro (fault | outputs) c ⟨⟨hholds, hvalue⟩, hstride⟩
  · exact ⟨⟨hholds, hstride⟩, trivial⟩
  · refine ⟨⟨hholds, hstride⟩, ?_⟩
    rw [range.positions_eq_strided] at hvalue
    exact eq_map_of_exactly hvalue.1 hvalue.2

theorem upholds_between (rounds : Nat) (first last : UInt64) (hc : cache.Mirrors f stride) :
    (load rounds first last).Upholds (Serves (γ := γ) (Exactly f)) cache fun r c =>
      c.Mirrors f stride ∧ IfValue (· = (Demand.between first last).direct f stride) r := by
  unfold load Demand.direct
  split
  · next hlt => exact upholds_pure ⟨hc, (if_pos hlt).symm⟩
  next hle =>
  change (Work.ofExcept (Game.Range.of first last cache.stride) >>= loadRange rounds).Upholds ..
  rw [hc.2]
  refine Upholds.bind (upholds_ofExcept ?_)
  cases hr : Game.Range.of first last stride with
  | error fault => exact ⟨hc, trivial⟩
  | ok range =>
    obtain ⟨hfirst, hlast, hrange⟩ := Game.Range.of_eq_ok_iff.mp hr
    refine (upholds_range numbered rounds range hc).imp ?_
    rintro (fault | outputs) c h
    · exact h
    · have hvalue : outputs = _ := h.2
      simp only [Demand.direct, hfirst, hlast, hrange] at hvalue
      exact ⟨h.1, hvalue.trans (if_neg hle).symm⟩

theorem Demand.upholds_work (demand : Demand) (rounds : Nat) (hc : cache.Mirrors f stride) :
    (demand.work rounds).Upholds (Serves (γ := γ) (Exactly f)) cache fun r c =>
      c.Mirrors f stride ∧ IfValue (· = demand.direct f stride) r := by
  cases demand with
  | one block =>
    have hload : (loadOne block).Upholds (Serves (γ := γ) (Exactly f)) cache _ :=
      upholds_loadOne (number_of_exactly numbered) block hc.1
    refine Upholds.bind ((hload.and (keeps_stride_loadOne block cache hc.2)).imp ?_)
    rintro (fault | output) c ⟨⟨hholds, hvalue⟩, hstride⟩
    · exact ⟨⟨hholds, hstride⟩, trivial⟩
    · exact upholds_pure ⟨⟨hholds, hstride⟩, congrArg (fun o => [o]) hvalue⟩
  | between first last => exact upholds_between numbered rounds first last hc
  | ofRange range => exact upholds_range numbered rounds range hc

end

/-- A demand that nothing hinders is met. -/
theorem Demand.delivers_work (demand : Demand) {rounds : Nat} (hr : 0 < rounds)
    (hstride : cache.stride ≠ 0) :
    (demand.work rounds).Delivers (Succeeds (γ := γ)) cache fun _ _ => True := by
  cases demand with
  | one block => exact Delivers.bind ((delivers_loadOne block).imp fun _ _ _ => trivial)
  | ofRange range => exact delivers_loadRange hr range
  | between first last =>
    change (load rounds first last).Delivers ..
    unfold load
    split
    · exact trivial
    next hle =>
    change (Work.ofExcept (Game.Range.of first last cache.stride) >>= loadRange rounds).Delivers ..
    obtain ⟨range, hrange⟩ := Game.Range.exists_of (UInt64.not_lt.mp hle) hstride
    rw [hrange]
    exact delivers_loadRange hr range

/-! ## Demands one after another -/

/-- One demand: how many rounds it was given, the exchanges with the node, and what came of it. -/
structure Turn (γ : Type) where
  demand : Demand
  rounds : Nat
  trace : List (Exchange (Watch γ))
  result : Except Fault (List Rollup.Output)

inductive Demands : OutputCache → List (Turn γ) → OutputCache → Prop
  | nil (cache : OutputCache) : Demands cache [] cache
  | cons {cache c cache' : OutputCache} {turn : Turn γ} {turns : List (Turn γ)}
      (run : (turn.demand.work turn.rounds cache).Yields turn.trace (turn.result, c))
      (rest : Demands c turns cache') : Demands cache (turn :: turns) cache'

theorem Demands.mirrors (numbered : ∀ block, (f block).number = block) {turns : List (Turn γ)}
    (h : Demands cache turns cache') (hc : cache.Mirrors f stride)
    (served : ∀ turn ∈ turns, ∀ e ∈ turn.trace, Serves (Exactly f) e.ask e.reply) :
    cache'.Mirrors f stride ∧
      ∀ turn ∈ turns, IfValue (· = turn.demand.direct f stride) turn.result := by
  induction h with
  | nil => exact ⟨hc, fun _ hm => nomatch hm⟩
  | @cons _ _ _ turn turns run rest ih =>
    obtain ⟨hserved, served⟩ := List.forall_mem_cons.mp served
    obtain ⟨hc, hvalue⟩ :=
      (turn.demand.upholds_work numbered turn.rounds hc).of_yields run hserved
    obtain ⟨hc, hrest⟩ := ih hc served
    exact ⟨hc, List.forall_mem_cons.mpr ⟨hvalue, hrest⟩⟩

/-- A cache of any size and stride shows nothing of itself: each demand that is met is met with what
the node has for the blocks demanded, in ascending order; and the next one is met, in this way, if
no answer fails to come. -/
theorem demands_transparent (numbered : ∀ block, (f block).number = block) {capacity : Nat}
    (hcapacity : 0 < capacity) (hstride : stride ≠ 0) :
    ∃ cache, OutputCache.of capacity stride = .ok cache ∧
      ∀ (turns : List (Turn γ)) (cache' : OutputCache), Demands cache turns cache' →
        (∀ turn ∈ turns, ∀ e ∈ turn.trace, Serves (Exactly f) e.ask e.reply) →
        (∀ turn ∈ turns, ∀ outputs, turn.result = .ok outputs →
          outputs = turn.demand.direct f stride) ∧
        ∀ (demand : Demand) (rounds : Nat), 0 < rounds →
          (demand.work rounds).Delivers
            (fun q reply => Succeeds (γ := γ) q reply ∧ Serves (Exactly f) q reply) cache'
            fun outputs _ => outputs = demand.direct f stride := by
  obtain ⟨cache, hof⟩ := exists_of hcapacity hstride
  refine ⟨cache, hof, fun turns cache' h served => ?_⟩
  obtain ⟨hc, hmet⟩ := h.mirrors numbered (mirrors_of hof) served
  constructor
  · intro turn hm outputs hresult
    have hvalue := hmet turn hm
    rw [hresult] at hvalue
    exact hvalue
  · intro demand rounds hr
    have hdelivers := demand.delivers_work (γ := γ) hr (hc.2 ▸ hstride)
    have hupholds := demand.upholds_work (γ := γ) numbered rounds hc
    refine ((hdelivers.restrict fun _ _ h => h.1).and_upholds
      (hupholds.restrict fun _ _ h => h.2)).imp ?_
    rintro outputs c ⟨-, -, hvalue⟩
    exact hvalue

namespace Sample

theorem serves (rootClaim claimsHash : Hash) (now : UInt64) (q : Watch.Ask Unit) (s : Unit) :
    Serves (Exactly output) q ((surroundings rootClaim claimsHash now).answer q s).1 := by
  cases q with
  | fetch what =>
    cases what with
    | output block => rfl
    | outputs blocks =>
      refine ⟨fun o ho => ?_, fun block hb => ⟨output block, List.mem_map_of_mem hb, rfl⟩⟩
      obtain ⟨block, -, rfl⟩ := List.mem_map.mp ho
      rfl
    | _ => trivial
  | _ => trivial

end Sample

open Sample in
/-- In a cache for one output, a range of two blocks is had in full, though the first is evicted
before the second is returned; so is the first block after that. -/
theorem demands_transparent_sample : ∃ cache c c' outputs output',
    OutputCache.of 1 1 = .ok cache ∧
    ((Demand.ofRange range).work 1).Gives (surroundings .zero .zero 0) cache () outputs c () ∧
    ((Demand.one 0).work 1).Gives (surroundings .zero .zero 0) c () output' c' () ∧
    outputs = [output 0, output 1] ∧ output' = [output 0] := by
  obtain ⟨cache, hof, h⟩ := demands_transparent (γ := Unit) (f := output) (fun _ => rfl)
    Nat.one_pos (show (1 : UInt64) ≠ 0 by decide)
  have hrely {α : Type} (x : Work Unit α) (c : OutputCache) :
      ∀ e ∈ (x c).exchanges (surroundings .zero .zero 0).answer (),
        Succeeds e.ask e.reply ∧ Serves (Exactly output) e.ask e.reply := fun e he =>
    ⟨Program.exchanges_rely (succeeds .zero .zero 0) e he,
      Program.exchanges_rely (serves .zero .zero 0) e he⟩
  obtain ⟨outputs, c, _, hover, -⟩ :=
    ((h [] cache (.nil cache) nofun).2 (.ofRange range) 1 Nat.one_pos).gives (hrely _ _)
  have hturn := h [⟨.ofRange range, 1, _, .ok outputs⟩] c
    (.cons (Program.yields_of_run hover) (.nil c))
    (List.forall_mem_singleton.mpr fun e he => (hrely _ _ e he).2)
  obtain ⟨output', c', _, hone, hvalue⟩ :=
    (hturn.2 (.one 0) 1 Nat.one_pos).gives (hrely _ _)
  exact ⟨cache, c, c', outputs, output', hof, hover, hone,
    hturn.1 _ (List.mem_singleton_self _) outputs rfl, hvalue⟩

end Watchtower
