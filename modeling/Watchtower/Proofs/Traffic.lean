import Watchtower.Proofs.Sifting
import Watchtower.Proofs.Transparency

/-!
# No more is asked of a node than has to be

The node is truthful. It gives a single output when asked, and a batch in full after any number of
failures, and nobody gives the signal to stop.

* `Obliges f` : the rely of such a node;
* `traffic trace` : the requests and waits among exchanges;
* `demand.absent stride recent` : the blocks demanded that are not among the recent ones;
* `demand.requests f absent faults response` : the traffic that brings absent blocks, if the batch
  fails with these faults before the response comes;
* `history capacity stride past turns` : the uses of blocks in demands one after another, after those
  of the past. A demand first uses what is cached, in ascending order, and then what is not, in the
  order in which it comes;
* `Demands.tracks` : the cache always holds the blocks used most recently;
* `traffic_minimal` : so the traffic of each demand is for the blocks that are not among these.
-/

namespace Watchtower

open Work OutputCache

variable {γ : Type} {f : UInt64 → Rollup.Output} {stride : UInt64} {capacity rounds : Nat}
  {cache cache' : OutputCache} {trace : List (Exchange (Watch γ))}

/-- The node has one output for each block, and gives it if asked for it alone. A batch may fail, but
one that comes is complete. -/
def Obliges (f : UInt64 → Rollup.Output) : (Watch γ).Rely
  | .fetch (.output block), reply => reply = some (.ok (f block))
  | .fetch what, reply => reply ≠ none ∧ Serves (Exactly f) (.fetch what) reply
  | .stopping, stopping => stopping = false
  | .pause .., cut => cut = false
  | _, _ => True

/-! ## Work that does not fail -/

namespace Work

variable {α β : Type} {rely : (Watch γ).Rely} {x : Work γ α} {g : α → Work γ β}

/-- Whenever the work ends it does so with a value. -/
def Unfailing (rely : (Watch γ).Rely) (x : Work γ α) : Prop :=
  ∀ cache, x.Upholds rely cache fun result _ => ∃ a, result = .ok a

theorem unfailing_pure (a : α) : (pure a : Work γ α).Unfailing rely :=
  fun _ => upholds_pure ⟨a, rfl⟩

theorem Unfailing.bind (h : x.Unfailing rely) (hg : ∀ a, (g a).Unfailing rely) :
    (x >>= g).Unfailing rely := by
  refine fun cache => Upholds.bind ((h cache).imp ?_)
  rintro _ c ⟨a, rfl⟩
  exact hg a c

theorem unfailing_ask_then {q : Watch.Ask γ} {g : Watch.Reply γ q → Work γ β}
    (hg : ∀ reply, rely q reply → (g reply).Unfailing rely) : (ask q >>= g).Unfailing rely :=
  fun cache => Upholds.bind (upholds_ask fun reply hr => hg reply hr cache)

end Work

namespace OutputCache

theorem unfailing_checkpoint : checkpoint.Unfailing (Obliges (γ := γ) f) := by
  refine unfailing_ask_then fun stopping hs => ?_
  rw [show stopping = false from hs]
  exact unfailing_pure ()

theorem unfailing_loadOne (block : UInt64) : (loadOne block).Unfailing (Obliges (γ := γ) f) := by
  have hlookup : (lookup block).Unfailing (Obliges (γ := γ) f) := fun _ => ⟨_, rfl⟩
  refine hlookup.bind ?_
  rintro (_ | output)
  · refine unfailing_checkpoint.bind fun _ => ?_
    unfold fetch
    rw [Work.bind_assoc]
    refine unfailing_ask_then fun reply hr => ?_
    rw [show reply = some (.ok (f block)) from hr]
    exact fun _ => ⟨_, rfl⟩
  · exact unfailing_pure output

/-- A batch is asked for until it comes. -/
theorem unfailing_fetchBatch (blocks : List UInt64) (rounds : Nat) :
    (fetchBatch blocks rounds).Unfailing (Obliges (γ := γ) f) := by
  induction rounds with
  | zero => exact fun _ => trivial
  | succ rounds ih =>
    refine unfailing_checkpoint.bind fun _ => unfailing_ask_then ?_
    rintro (_ | fault | outputs) hr
    · exact absurd rfl hr.1
    · refine unfailing_ask_then fun _ _ => unfailing_checkpoint.bind fun _ => ?_
      refine unfailing_ask_then fun cut hcut => ?_
      rw [show cut = false from hcut]
      exact ih
    · exact unfailing_pure outputs

theorem unfailing_accept (requested : List UInt64) (outputs : List Rollup.Output) :
    (accept requested outputs).Unfailing (Obliges (γ := γ) f) := by
  induction outputs generalizing requested with
  | nil => exact unfailing_pure []
  | cons output outputs ih =>
    have hstore : (store output).Unfailing (Obliges (γ := γ) f) := fun _ => ⟨(), rfl⟩
    rw [accept]
    split
    · exact hstore.bind fun _ => (ih _).bind fun _ => unfailing_pure _
    · exact unfailing_ask_then fun _ _ => ih requested

theorem unfailing_loadRange (rounds : Nat) (range : Game.Range) :
    (loadRange rounds range).Unfailing (Obliges (γ := γ) f) := by
  have hlookups : (lookupAll range.positions).Unfailing (Obliges (γ := γ) f) := by
    intro cache
    unfold Upholds
    rw [lookupAll_apply]
    exact ⟨_, rfl⟩
  refine hlookups.bind fun (hits, missing) => ?_
  have hmissing : (loadMissing rounds missing).Unfailing (Obliges (γ := γ) f) := by
    unfold loadMissing
    split
    · exact unfailing_pure []
    · refine (unfailing_fetchBatch missing rounds).bind fun outputs => ?_
      exact unfailing_accept missing outputs
  refine hmissing.bind fun fetched => ?_
  unfold arrange
  split
  · exact unfailing_ask_then fun _ _ => unfailing_pure _
  · exact unfailing_pure _

end OutputCache

/-! ## Requests and waits -/

def Watch.Ask.isTraffic : Watch.Ask γ → Bool
  | .fetch _ | .pause .. => true
  | _ => false

def traffic (trace : List (Exchange (Watch γ))) : List (Exchange (Watch γ)) :=
  trace.filter fun e => e.ask.isTraffic

/-- The outputs that an answer brings. -/
def Exchange.outputs : Exchange (Watch γ) → List Rollup.Output
  | ⟨.fetch (.output _), some (.ok output)⟩ => [output]
  | ⟨.fetch (.outputs _), some (.ok outputs)⟩ => outputs
  | _ => []

def answered (trace : List (Exchange (Watch γ))) : List Rollup.Output :=
  trace.flatMap Exchange.outputs

/-- One batch, asked for again a second after each fault. -/
def batchRequests (blocks : List UInt64) (faults : List Fault) (response : List Rollup.Output) :
    List (Exchange (Watch γ)) :=
  faults.flatMap (fun fault =>
    [⟨.fetch (.outputs blocks), some (.error fault)⟩, ⟨.pause 1000 0, false⟩]) ++
  [⟨.fetch (.outputs blocks), some (.ok response)⟩]

theorem traffic_batch (blocks : List UInt64) (faults : List Fault)
    (response : List Rollup.Output) :
    traffic (γ := γ) (faults.flatMap (failedBatch blocks) ++ lastBatch blocks response ++
      drops blocks response) = batchRequests blocks faults response := by
  have hdrops : traffic (γ := γ) (drops blocks response) = [] :=
    List.filter_eq_nil_iff.mpr fun e he => by
      rw [List.eq_of_mem_replicate he]
      exact Bool.false_ne_true
  unfold traffic at *
  rw [List.filter_append, List.filter_append, hdrops, List.append_nil, List.filter_flatMap]
  rfl

theorem answered_batch (blocks : List UInt64) (faults : List Fault)
    (response : List Rollup.Output) :
    answered (γ := γ) (faults.flatMap (failedBatch blocks) ++ lastBatch blocks response ++
      drops blocks response) = response := by
  have hdrops : answered (γ := γ) (drops blocks response) = [] :=
    List.flatMap_eq_nil_iff.mpr fun e he => by rw [List.eq_of_mem_replicate he]; rfl
  have hfailed : answered (γ := γ) (faults.flatMap (failedBatch blocks)) = [] := by
    unfold answered
    rw [List.flatMap_assoc]
    exact List.flatMap_eq_nil_iff.mpr fun _ _ => rfl
  unfold answered at *
  rw [List.flatMap_append, List.flatMap_append, hdrops, hfailed, List.append_nil]
  exact List.append_nil response

theorem traffic_append_shortage (trace : List (Exchange (Watch γ))) (range : Game.Range)
    (outputs : List Rollup.Output) :
    traffic (trace ++ shortage range outputs) = traffic trace ∧
      answered (trace ++ shortage range outputs) = answered trace := by
  unfold shortage
  split
  · constructor
    · exact (List.filter_append ..).trans (List.append_nil _)
    · exact (List.flatMap_append ..).trans (List.append_nil _)
  · rw [List.append_nil]
    exact ⟨rfl, rfl⟩

/-! ## Demands -/

namespace Demand

def blocks (stride : UInt64) : Demand → List UInt64
  | .one block => [block]
  | .between first last => if last < first then [] else strided first last stride
  | .ofRange range => strided range.first range.last range.stride

/-- The blocks demanded that are not among the recent ones. -/
def absent (stride : UInt64) (recent : List UInt64) (demand : Demand) : List UInt64 :=
  (demand.blocks stride).filter (· ∉ recent)

/-- The traffic that brings absent blocks, none if there are none. A batch fails with the faults
before the response comes. -/
def requests (f : UInt64 → Rollup.Output) (absent : List UInt64) (faults : List Fault)
    (response : List Rollup.Output) : Demand → List (Exchange (Watch γ))
  | .one _ => absent.map fun block => ⟨.fetch (.output block), some (.ok (f block))⟩
  | .between .. | .ofRange _ => if absent = [] then [] else batchRequests absent faults response

theorem absent_one_of_mem {recent : List UInt64} {block : UInt64} (h : block ∈ recent) :
    (one block).absent stride recent = [] := List.filter_cons_of_neg (by simpa using h)

theorem absent_one_of_not_mem {recent : List UInt64} {block : UInt64} (h : block ∉ recent) :
    (one block).absent stride recent = [block] := List.filter_cons_of_pos (by simpa using h)

theorem absent_of_blocks_eq_nil {demand : Demand} (h : demand.blocks stride = [])
    (recent : List UInt64) : demand.absent stride recent = [] := by
  unfold absent
  rw [h]
  rfl

theorem blocks_ofRange (stride : UInt64) (range : Game.Range) :
    (ofRange range).blocks stride = range.positions := range.positions_eq_strided.symm

theorem blocks_between {first last : UInt64} {range : Game.Range}
    (hrange : Game.Range.of first last stride = .ok range) :
    (between first last).blocks stride = range.positions := by
  obtain ⟨rfl, rfl, rfl⟩ := Game.Range.of_eq_ok_iff.mp hrange
  exact (if_neg (UInt64.not_lt.mpr range.first_le_last)).trans range.positions_eq_strided.symm

/-- A demand up to a last block is for nothing, or for a range. -/
theorem between_cases (rounds : Nat) (first last : UInt64) (hstride : cache.stride ≠ 0) :
    ((between first last).blocks cache.stride = [] ∧
      (load rounds first last : Work γ _) cache = .done (.ok [], cache)) ∨
    ∃ range : Game.Range, (between first last).blocks cache.stride = range.positions ∧
      (load rounds first last : Work γ _) cache = loadRange rounds range cache := by
  unfold load
  by_cases hlt : last < first
  · rw [if_pos hlt]
    exact .inl ⟨if_pos hlt, rfl⟩
  · obtain ⟨range, hrange⟩ := Game.Range.exists_of (UInt64.not_lt.mp hlt) hstride
    rw [if_neg hlt]
    refine .inr ⟨range, blocks_between hrange, ?_⟩
    change (Work.ofExcept (Game.Range.of first last cache.stride) >>= loadRange rounds) cache = _
    rw [hrange]
    rfl

theorem pairwise_blocks (demand : Demand) (hstride : stride ≠ 0) :
    (demand.blocks stride).Pairwise (· < ·) := by
  cases demand with
  | one block => exact List.pairwise_singleton _ block
  | ofRange range => exact blocks_ofRange stride range ▸ range.pairwise_positions
  | between first last =>
    by_cases hlt : last < first
    · have hnone : (between first last).blocks stride = [] := if_pos hlt
      rw [hnone]
      exact .nil
    · obtain ⟨range, hrange⟩ := Game.Range.exists_of (UInt64.not_lt.mp hlt) hstride
      exact blocks_between hrange ▸ range.pairwise_positions

/-- A demand is always met. -/
theorem unfailing_work (demand : Demand) (rounds : Nat) (hstride : cache.stride ≠ 0) :
    (demand.work rounds).Upholds (Obliges (γ := γ) f) cache fun result _ =>
      ∃ outputs, result = .ok outputs := by
  cases demand with
  | one block => exact (unfailing_loadOne block).bind (fun _ => unfailing_pure _) cache
  | ofRange range => exact unfailing_loadRange rounds range cache
  | between first last =>
    change (load rounds first last).Upholds ..
    unfold Upholds
    rcases between_cases (γ := γ) rounds first last hstride with ⟨-, h⟩ | ⟨range, -, h⟩
    · rw [h]
      exact ⟨_, rfl⟩
    · rw [h]
      exact unfailing_loadRange rounds range cache

end Demand

/-! ## The history of uses -/

/-- What a demand uses of a cache that holds the recent blocks: first those of its own that are among
them, in ascending order, and then the others, in the order in which they come. -/
def Demand.uses (stride : UInt64) (recent : List UInt64) (answers : List Rollup.Output)
    (demand : Demand) : List UInt64 :=
  (demand.blocks stride).filter (· ∈ recent) ++
    ((answers.map Rollup.Output.number).filter (· ∈ demand.absent stride recent)).eraseDups

theorem Demand.mem_uses {demand : Demand} {recent : List UInt64} {answers : List Rollup.Output}
    (hbrought : ∀ block ∈ demand.absent stride recent, ∃ o ∈ answers, o.number = block) :
    ∀ block ∈ demand.blocks stride, block ∈ demand.uses stride recent answers := by
  intro block hblock
  by_cases hrecent : block ∈ recent
  · exact List.mem_append_left _ (List.mem_filter.mpr ⟨hblock, decide_eq_true hrecent⟩)
  · have habsent : block ∈ demand.absent stride recent :=
      List.mem_filter.mpr ⟨hblock, decide_eq_true hrecent⟩
    obtain ⟨o, ho, rfl⟩ := hbrought block habsent
    refine List.mem_append_right _ (List.mem_eraseDups.mpr ?_)
    exact List.mem_filter.mpr ⟨List.mem_map_of_mem ho, decide_eq_true habsent⟩

/-- No block is used twice. -/
theorem Demand.length_uses_le (demand : Demand) (recent : List UInt64)
    (answers : List Rollup.Output) :
    (demand.uses stride recent answers).length ≤ (demand.blocks stride).length := by
  have hinserted : ((answers.map Rollup.Output.number).filter
      (· ∈ demand.absent stride recent)).eraseDups.length ≤
        (demand.absent stride recent).length := by
    refine (List.subperm_of_subset (nodup_eraseDups _) fun block hblock => ?_).length_le
    exact of_decide_eq_true (List.mem_filter.mp (List.mem_eraseDups.mp hblock)).2
  have hsplit := List.length_eq_length_filter_add (l := demand.blocks stride) (· ∈ recent)
  unfold uses absent at *
  simp only [List.length_append, ← decide_not] at *
  omega

/-- The uses of a cache in the past and then in all turns, the oldest first. -/
def history (capacity : Nat) (stride : UInt64) (past : List UInt64) (turns : List (Turn γ)) :
    List UInt64 :=
  turns.foldl (fun past turn =>
    past ++ turn.demand.uses stride (Recency.recent capacity past) (answered turn.trace)) past

/-- The cache holds the blocks of the history that were used most recently. -/
structure OutputCache.Tracks (capacity : Nat) (stride : UInt64) (past : List UInt64)
    (cache : OutputCache) : Prop where
  stride_eq : cache.stride = stride
  capacity_eq : cache.table.capacity = capacity
  follows : cache.table.Follows past

theorem tracks_of (h : OutputCache.of capacity stride = .ok cache) :
    cache.Tracks capacity stride [] := by
  unfold OutputCache.of at h
  split at h
  · cases h
  · split at h
    · cases h
    · obtain rfl := Except.ok.inj h
      exact ⟨rfl, rfl, Recency.follows_empty capacity⟩

namespace OutputCache.Tracks

variable {past : List UInt64} (hc : cache.Tracks capacity stride past)
include hc

theorem keys_eq : cache.table.keys = Recency.recent capacity past := hc.capacity_eq ▸ hc.follows

theorem absent_eq (blocks : List UInt64) :
    cache.absent blocks = blocks.filter (· ∉ Recency.recent capacity past) := by
  unfold OutputCache.absent
  rw [hc.keys_eq]

theorem absent_positions (range : Game.Range) : cache.absent range.positions =
    (Demand.ofRange range).absent stride (Recency.recent capacity past) := by
  rw [hc.absent_eq, ← Demand.blocks_ofRange stride]
  rfl

theorem used (blocks : List UInt64) : (cache.used blocks).Tracks capacity stride
    (past ++ blocks.filter (· ∈ Recency.recent capacity past)) := by
  refine ⟨hc.stride_eq, ?_, ?_⟩
  · exact (Recency.capacity_useAll cache.table blocks).trans hc.capacity_eq
  · exact hc.keys_eq ▸ hc.follows.useAll blocks

theorem storing (outputs : List Rollup.Output) : (cache.storing outputs).Tracks capacity stride
    (past ++ outputs.map Rollup.Output.number) := by
  refine ⟨hc.stride_eq, ?_, ?_⟩
  · exact (Recency.capacity_insertAll cache.table _).trans hc.capacity_eq
  · have hfollows := hc.follows.insertAll (outputs.map fun o => (o.number, o))
    rwa [List.map_map] at hfollows

end OutputCache.Tracks

/-! ## One demand -/

/-- What comes of a demand on a cache that was used as in the past. -/
structure Thrifty (f : UInt64 → Rollup.Output) (capacity : Nat) (stride : UInt64)
    (past : List UInt64) (demand : Demand) (trace : List (Exchange (Watch γ)))
    (cache' : OutputCache) : Prop where
  requested : ∃ faults response, traffic trace =
    demand.requests f (demand.absent stride (Recency.recent capacity past)) faults response
  brought : ∀ block ∈ demand.absent stride (Recency.recent capacity past),
    ∃ o ∈ answered trace, o.number = block
  tracks : cache'.Tracks capacity stride
    (past ++ demand.uses stride (Recency.recent capacity past) (answered trace))

theorem OutputCache.Fetches.traffic_eq {missing : List UInt64} {fetched : List Rollup.Output}
    (h : Fetches rounds missing trace fetched) (hn : missing.Nodup)
    (served : ∀ e ∈ trace, Obliges f e.ask e.reply) :
    (∃ faults response, traffic trace =
      if missing = [] then [] else batchRequests missing faults response) ∧
    (∀ block ∈ missing, ∃ o ∈ answered trace, o.number = block) ∧
    fetched.map Rollup.Output.number =
      (((answered trace).map Rollup.Output.number).filter (· ∈ missing)).eraseDups := by
  cases h with
  | nothing => exact ⟨⟨[], [], rfl⟩, List.forall_mem_nil _, rfl⟩
  | @batch _ hne faults _ response =>
    rw [traffic_batch, answered_batch]
    refine ⟨⟨faults, response, (if_neg hne).symm⟩, ?_, map_number_taken hn response⟩
    have hreply := served ⟨.fetch (.outputs missing), some (.ok response)⟩
      (List.mem_append_left _ (List.mem_append_right _ (List.mem_cons_of_mem _ List.mem_cons_self)))
    exact hreply.2.2

section
variable {past : List UInt64} (hc : cache.Tracks capacity stride past)
include hc

theorem thrifty_one (numbered : ∀ block, (f block).number = block) {block : UInt64}
    {output : Rollup.Output} (h : (loadOne block).Yields cache trace (.ok output) cache')
    (served : ∀ e ∈ trace, Obliges f e.ask e.reply) :
    Thrifty f capacity stride past (.one block) trace cache' := by
  have hkeys := hc.keys_eq
  rcases yields_loadOne_ok_iff.mp h with ⟨hfound, rfl, rfl⟩ | ⟨hfound, rfl, rfl⟩
  · have hrecent : block ∈ Recency.recent capacity past := hkeys ▸ Recency.mem_keys_of_peek? hfound
    have habsent : (Demand.one block).absent stride _ = [] := Demand.absent_one_of_mem hrecent
    refine ⟨⟨[], [], ?_⟩, ?_, ?_⟩
    · rw [habsent]
      rfl
    · rw [habsent]
      exact List.forall_mem_nil _
    · unfold Demand.uses
      rw [habsent]
      exact (List.append_nil (List.filter _ [block])).symm ▸ hc.used [block]
  · have hreply := served _ (List.mem_cons_of_mem _ List.mem_cons_self)
    obtain rfl : output = f block := Except.ok.inj (Option.some.inj hreply)
    have hfresh : block ∉ Recency.recent capacity past :=
      hkeys ▸ (cache.table.peek?_eq_none_iff block).mp hfound
    have habsent : (Demand.one block).absent stride _ = [block] :=
      Demand.absent_one_of_not_mem hfresh
    have huses : (Demand.one block).uses stride (Recency.recent capacity past) [f block] =
        [f block].map Rollup.Output.number := by
      unfold Demand.uses
      rw [habsent, List.map_singleton, numbered]
      simp [Demand.blocks, hfresh, List.eraseDups_cons]
    refine ⟨⟨[], [], ?_⟩, ?_, ?_⟩
    · rw [habsent]
      rfl
    · rw [habsent]
      exact List.forall_mem_singleton.mpr ⟨f block, List.mem_singleton_self _, numbered block⟩
    · exact huses ▸ hc.storing [f block]

theorem thrifty_range {range : Game.Range} {outputs : List Rollup.Output}
    (h : (loadRange rounds range).Yields cache trace (.ok outputs) cache')
    (served : ∀ e ∈ trace, Obliges f e.ask e.reply) :
    Thrifty f capacity stride past (.ofRange range) trace cache' := by
  obtain ⟨fetching, fetched, hfetches, rfl, -, rfl⟩ := yields_loadRange_ok_iff.mp h
  obtain ⟨⟨faults, response, htraffic⟩, hbrought, hnumbers⟩ :=
    hfetches.traffic_eq (nodup_absent cache range) fun e he => served e (List.mem_append_left _ he)
  rw [hc.absent_positions] at htraffic hbrought hnumbers
  obtain ⟨hsame, hanswers⟩ := traffic_append_shortage fetching range
    (cache.hits range.positions ++ fetched)
  refine ⟨⟨faults, response, hsame.trans htraffic⟩, hanswers ▸ hbrought, ?_⟩
  unfold Demand.uses
  rw [hanswers, ← hnumbers, Demand.blocks_ofRange, ← List.append_assoc]
  exact (hc.used range.positions).storing fetched

/-- For nothing there is nothing to do, and demands for the same blocks are alike. -/
theorem thrifty_between (hstride : stride ≠ 0) {first last : UInt64}
    {outputs : List Rollup.Output}
    (h : (load rounds first last).Yields cache trace (.ok outputs) cache')
    (served : ∀ e ∈ trace, Obliges f e.ask e.reply) :
    Thrifty f capacity stride past (.between first last) trace cache' := by
  have hcases := Demand.between_cases (γ := γ) rounds first last
    (hc.stride_eq ▸ hstride)
  rw [hc.stride_eq] at hcases
  rcases hcases with ⟨hnone, hwork⟩ | ⟨range, hblocks, hwork⟩
  · unfold Work.Yields at h
    rw [hwork] at h
    obtain ⟨rfl, he⟩ := Program.yields_done_iff.mp h
    obtain rfl := (Prod.mk.inj he).2
    have habsent := Demand.absent_of_blocks_eq_nil hnone (Recency.recent capacity past)
    have huses : (Demand.between first last).uses stride (Recency.recent capacity past) [] = [] := by
      unfold Demand.uses
      rw [hnone]
      rfl
    refine ⟨⟨[], [], (habsent ▸ rfl)⟩, habsent ▸ List.forall_mem_nil _, ?_⟩
    exact (huses ▸ (List.append_nil past).symm) ▸ hc
  · unfold Work.Yields at h
    rw [hwork] at h
    have hthrifty := thrifty_range hc h served
    have hblocks := hblocks.trans (Demand.blocks_ofRange stride range).symm
    obtain ⟨hrequested, hbrought, htracks⟩ := hthrifty
    unfold Demand.uses at htracks
    unfold Demand.absent at hrequested hbrought htracks
    rw [← hblocks] at hrequested hbrought htracks
    exact ⟨hrequested, hbrought, htracks⟩

theorem Turn.thrifty (numbered : ∀ block, (f block).number = block) (hstride : stride ≠ 0)
    {turn : Turn γ}
    (run : (turn.demand.work turn.rounds cache).Yields turn.trace (turn.result, cache'))
    (served : ∀ e ∈ turn.trace, Obliges f e.ask e.reply) :
    (∃ outputs, turn.result = .ok outputs) ∧
      Thrifty f capacity stride past turn.demand turn.trace cache' := by
  have hmet := (turn.demand.unfailing_work (γ := γ) (f := f) turn.rounds
    (hc.stride_eq ▸ hstride)).of_yields run served
  refine ⟨hmet, ?_⟩
  obtain ⟨demand, rounds, trace, result⟩ := turn
  obtain ⟨outputs, rfl⟩ := hmet
  cases demand with
  | one block =>
    obtain ⟨output, c, first, second, rfl, hone, hrest⟩ := yields_bind_ok_iff.mp run
    obtain ⟨rfl, -, rfl⟩ := yields_pure_iff.mp hrest
    rw [List.append_nil] at served ⊢
    exact thrifty_one hc numbered hone served
  | ofRange range => exact thrifty_range hc run served
  | between first last => exact thrifty_between hc hstride run served

end

/-! ## Demands one after another -/

/-- So the cache goes on to hold the blocks used most recently. -/
theorem Demands.tracks (numbered : ∀ block, (f block).number = block) (hstride : stride ≠ 0)
    {turns : List (Turn γ)} (h : Demands cache turns cache') {past : List UInt64}
    (hc : cache.Tracks capacity stride past)
    (served : ∀ turn ∈ turns, ∀ e ∈ turn.trace, Obliges f e.ask e.reply) :
    cache'.Tracks capacity stride (history capacity stride past turns) := by
  induction h generalizing past with
  | nil => exact hc
  | cons run rest ih =>
    obtain ⟨hserved, served⟩ := List.forall_mem_cons.mp served
    exact ih (Turn.thrifty hc numbered hstride run hserved).2.tracks served

/-! ## A node that gives what it may -/

theorem obliges_batch {missing : List UInt64} (faults : List Fault) {response : List Rollup.Output}
    (hresponse : Obliges (γ := γ) f (.fetch (.outputs missing)) (some (.ok response))) :
    ∀ e ∈ faults.flatMap (failedBatch missing) ++ lastBatch missing response ++
      drops missing response, Obliges (γ := γ) f e.ask e.reply := by
  intro e he
  rcases List.mem_append.mp he with he | he
  · rcases List.mem_append.mp he with he | he
    · obtain ⟨fault, -, he⟩ := List.mem_flatMap.mp he
      simp only [failedBatch, List.mem_cons, List.not_mem_nil, or_false] at he
      rcases he with rfl | rfl | rfl | rfl | rfl
      · rfl
      · exact ⟨nofun, trivial⟩
      · trivial
      · rfl
      · rfl
    · rcases List.mem_pair.mp he with rfl | rfl
      · rfl
      · exact hresponse
  · rw [List.eq_of_mem_replicate he]
    trivial

theorem obliges_shortage (range : Game.Range) (outputs : List Rollup.Output) :
    ∀ e ∈ shortage range outputs, Obliges (γ := γ) f e.ask e.reply := by
  unfold shortage
  split
  · exact List.forall_mem_singleton.mpr trivial
  · exact List.forall_mem_nil _

section
variable {past : List UInt64} (hc : cache.Tracks capacity stride past)
include hc

theorem exists_one (faults : List Fault) (response : List Rollup.Output) (block : UInt64) :
    ∃ trace output c, (loadOne block : Work γ _).Yields cache trace (.ok output) c ∧
      (∀ e ∈ trace, Obliges f e.ask e.reply) ∧ traffic trace = (Demand.one block).requests f
        ((Demand.one block).absent stride (Recency.recent capacity past)) faults response := by
  cases hfound : cache.table.peek? block with
  | some output =>
    have hrecent : block ∈ Recency.recent capacity past :=
      hc.keys_eq ▸ Recency.mem_keys_of_peek? hfound
    refine ⟨[], output, _, yields_loadOne_ok_iff.mpr (.inl ⟨hfound, rfl, rfl⟩),
      List.forall_mem_nil _, ?_⟩
    rw [Demand.absent_one_of_mem hrecent]
    rfl
  | none =>
    have hfresh : block ∉ Recency.recent capacity past :=
      hc.keys_eq ▸ (cache.table.peek?_eq_none_iff block).mp hfound
    refine ⟨_, f block, _, yields_loadOne_ok_iff.mpr (.inr ⟨hfound, rfl, rfl⟩), ?_, ?_⟩
    · exact List.forall_mem_cons.mpr ⟨rfl, List.forall_mem_singleton.mpr rfl⟩
    · rw [Demand.absent_one_of_not_mem hfresh]
      rfl

theorem exists_range {faults : List Fault} (hfaults : faults.length < rounds)
    {response : List Rollup.Output} (range : Game.Range)
    (hresponse : Obliges (γ := γ) f (.fetch (.outputs ((Demand.ofRange range).absent stride
      (Recency.recent capacity past)))) (some (.ok response))) :
    ∃ trace outputs c, (loadRange rounds range : Work γ _).Yields cache trace (.ok outputs) c ∧
      (∀ e ∈ trace, Obliges f e.ask e.reply) ∧ traffic trace = (Demand.ofRange range).requests f
        ((Demand.ofRange range).absent stride (Recency.recent capacity past)) faults response := by
  rw [← hc.absent_positions] at hresponse ⊢
  by_cases hne : cache.absent range.positions = []
  · refine ⟨_, _, _, yields_loadRange_ok_iff.mpr ⟨[], [], hne ▸ .nothing, rfl, rfl, rfl⟩, ?_, ?_⟩
    · exact obliges_shortage range _
    · exact (traffic_append_shortage [] range _).1.trans (if_pos hne).symm
  · refine ⟨_, _, _, yields_loadRange_ok_iff.mpr
      ⟨_, _, .batch hne hfaults response, rfl, rfl, rfl⟩, ?_, ?_⟩
    · intro e he
      rcases List.mem_append.mp he with he | he
      · exact obliges_batch faults hresponse e he
      · exact obliges_shortage range _ e he
    · refine (traffic_append_shortage _ range _).1.trans ?_
      exact (traffic_batch _ faults response).trans (if_neg hne).symm

theorem Demand.exists_work (hstride : stride ≠ 0) {faults : List Fault}
    (hfaults : faults.length < rounds) {response : List Rollup.Output} (demand : Demand)
    (hresponse : Obliges (γ := γ) f (.fetch (.outputs (demand.absent stride
      (Recency.recent capacity past)))) (some (.ok response))) :
    ∃ trace result c, (demand.work rounds cache : Program (Watch γ) _).Yields trace (result, c) ∧
      (∀ e ∈ trace, Obliges f e.ask e.reply) ∧ traffic trace = demand.requests f
        (demand.absent stride (Recency.recent capacity past)) faults response := by
  cases demand with
  | one block =>
    obtain ⟨trace, output, c, hone, served, htraffic⟩ :=
      exists_one (γ := γ) (f := f) hc faults response block
    refine ⟨trace, .ok [output], c, ?_, served, htraffic⟩
    exact yields_bind_ok_iff.mpr ⟨output, c, trace, [], (List.append_nil trace).symm, hone,
      yields_pure_iff.mpr ⟨rfl, rfl, rfl⟩⟩
  | ofRange range =>
    obtain ⟨trace, outputs, c, h, hrest⟩ := exists_range hc hfaults range hresponse
    exact ⟨trace, .ok outputs, c, h, hrest⟩
  | between first last =>
    have hcases := between_cases (γ := γ) rounds first last (hc.stride_eq ▸ hstride)
    rw [hc.stride_eq] at hcases
    change ∃ trace result c, (load rounds first last cache : Program (Watch γ) _).Yields _ _ ∧ _
    rcases hcases with ⟨hnone, hwork⟩ | ⟨range, hblocks, hwork⟩
    · rw [hwork, absent_of_blocks_eq_nil hnone]
      exact ⟨[], _, _, .done _, List.forall_mem_nil _, rfl⟩
    · have habsent : (between first last).absent stride (Recency.recent capacity past) =
          (ofRange range).absent stride (Recency.recent capacity past) := by
        unfold absent
        rw [hblocks, blocks_ofRange]
      rw [habsent] at hresponse ⊢
      rw [hwork]
      obtain ⟨trace, outputs, c, h, hrest⟩ := exists_range hc hfaults range hresponse
      exact ⟨trace, .ok outputs, c, h, hrest⟩

end

/-! ## Minimal traffic -/

theorem Demand.requests_eq_nil_iff {absent : List UInt64} {faults : List Fault}
    {response : List Rollup.Output} (demand : Demand) :
    (demand.requests f absent faults response : List (Exchange (Watch γ))) = [] ↔ absent = [] := by
  have hbatch : (if absent = [] then ([] : List (Exchange (Watch γ))) else
      batchRequests absent faults response) = [] ↔ absent = [] := by
    split
    · next hnone => exact iff_of_true rfl hnone
    · next hsome => exact iff_of_false (List.append_ne_nil_of_right_ne_nil _ nofun) hsome
  cases demand with
  | one block => exact List.map_eq_nil_iff
  | between first last => exact hbatch
  | ofRange range => exact hbatch

theorem Demand.absent_eq_nil_iff {demand : Demand} {recent : List UInt64} :
    demand.absent stride recent = [] ↔ ∀ block ∈ demand.blocks stride, block ∈ recent := by
  unfold absent
  simp

/-- In a turn the node obliges. -/
def Turn.Obliged (f : UInt64 → Rollup.Output) (turn : Turn γ) : Prop :=
  ∀ e ∈ turn.trace, Obliges f e.ask e.reply

/-- The blocks of a demand are the most recent after it, if there is room for them. -/
theorem Thrifty.recent_of {past : List UInt64} {demand : Demand}
    (h : Thrifty f capacity stride past demand trace cache')
    (hroom : (demand.blocks stride).length ≤ capacity) :
    ∀ block ∈ demand.blocks stride, block ∈ Recency.recent capacity
      (past ++ demand.uses stride (Recency.recent capacity past) (answered trace)) := by
  intro block hblock
  refine Recency.mem_recent_append (Nat.le_trans (demand.length_uses_le _ _) hroom) ?_
  exact Demand.mem_uses h.brought block hblock

/-- Whatever a cache was used for before, the node is asked for the blocks demanded that are not among
those used most recently, and for no others: for a single one once, and for those of a range in one
batch, in ascending order, which is asked for again a second after each failure. Nothing else is
asked, and the demand is met, whatever comes of the attempts at a batch before the last. If there is
room for the blocks of a demand, the same demand right after it asks for nothing. -/
theorem traffic_minimal (numbered : ∀ block, (f block).number = block) (hcapacity : 0 < capacity)
    (hstride : stride ≠ 0) :
    ∃ fresh, OutputCache.of capacity stride = .ok fresh ∧
      ∀ (before : List (Turn γ)) (cache : OutputCache), Demands fresh before cache →
        (∀ turn ∈ before, turn.Obliged f) →
        let recent := Recency.recent capacity (history capacity stride [] before)
        (∀ (turn : Turn γ) (cache' : OutputCache), Demands cache [turn] cache' → turn.Obliged f →
          (∃ outputs, turn.result = .ok outputs) ∧
          (∃ faults response, traffic turn.trace =
            turn.demand.requests f (turn.demand.absent stride recent) faults response) ∧
          (turn.demand.absent stride recent).Pairwise (· < ·) ∧
          (traffic turn.trace = [] ↔ ∀ block ∈ turn.demand.blocks stride, block ∈ recent)) ∧
        (∀ demand rounds (faults : List Fault) response, faults.length < rounds →
          Obliges (γ := γ) f (.fetch (.outputs (demand.absent stride recent)))
            (some (.ok response)) →
          ∃ (turn : Turn γ) (cache' : OutputCache), turn.demand = demand ∧ turn.rounds = rounds ∧
            Demands cache [turn] cache' ∧ turn.Obliged f ∧ traffic turn.trace =
              demand.requests f (demand.absent stride recent) faults response) ∧
        ∀ (turn again : Turn γ) (cache' : OutputCache), Demands cache [turn, again] cache' →
          turn.Obliged f → again.Obliged f → again.demand = turn.demand →
          (turn.demand.blocks stride).length ≤ capacity → traffic again.trace = [] := by
  obtain ⟨fresh, hof⟩ := exists_of hcapacity hstride
  refine ⟨fresh, hof, fun before cache hbefore served => ?_⟩
  have hc := hbefore.tracks numbered hstride (tracks_of hof) served
  refine ⟨?_, ?_, ?_⟩
  · rintro turn cache' (_ | ⟨run, -⟩) hobliged
    obtain ⟨hmet, hthrifty⟩ := Turn.thrifty hc numbered hstride run hobliged
    obtain ⟨faults, response, hrequested⟩ := hthrifty.requested
    refine ⟨hmet, hthrifty.requested, (turn.demand.pairwise_blocks hstride).filter _, ?_⟩
    rw [hrequested, Demand.requests_eq_nil_iff, Demand.absent_eq_nil_iff]
  · intro demand rounds faults response hfaults hresponse
    obtain ⟨trace, result, c, run, hobliged, htraffic⟩ :=
      Demand.exists_work hc hstride hfaults demand hresponse
    exact ⟨⟨demand, rounds, trace, result⟩, c, rfl, rfl, .cons run (.nil c), hobliged, htraffic⟩
  · rintro turn again cache' (_ | ⟨first, _ | ⟨second, -⟩⟩) hobliged hagain hsame hroom
    have hthrifty := (Turn.thrifty hc numbered hstride first hobliged).2
    obtain ⟨faults, response, hrequested⟩ :=
      (Turn.thrifty hthrifty.tracks numbered hstride second hagain).2.requested
    rw [hrequested, Demand.requests_eq_nil_iff, Demand.absent_eq_nil_iff, hsame]
    exact hthrifty.recent_of hroom

open Sample in
/-- In a cache with room for two outputs, a range of two blocks is had by one batch that fails once,
and after that without asking. -/
theorem traffic_minimal_sample : ∃ (fresh cache : OutputCache) (turn : Turn Unit),
    OutputCache.of 2 1 = .ok fresh ∧ Demands fresh [turn] cache ∧ turn.demand = .ofRange range ∧
    traffic turn.trace = batchRequests [0, 1] [Cause.rpc .malformed] [output 1, output 0] ∧
    ∀ (again : Turn Unit) (cache' : OutputCache), Demands fresh [turn, again] cache' →
      again.Obliged output → again.demand = .ofRange range → traffic again.trace = [] := by
  obtain ⟨fresh, hof, h⟩ := traffic_minimal (γ := Unit) (f := output) (fun _ => rfl)
    Nat.two_pos (show (1 : UInt64) ≠ 0 by decide)
  obtain ⟨-, hmet, hrepeat⟩ := h [] fresh (.nil fresh) (List.forall_mem_nil _)
  have hresponse : Obliges (γ := Unit) output (.fetch (.outputs [0, 1]))
      (some (.ok [output 1, output 0])) := by
    refine ⟨nofun, List.forall_mem_cons.mpr ⟨rfl, List.forall_mem_singleton.mpr rfl⟩,
      List.forall_mem_cons.mpr ⟨⟨output 0, ?_, rfl⟩,
        List.forall_mem_singleton.mpr ⟨output 1, List.mem_cons_self, rfl⟩⟩⟩
    exact List.mem_cons_of_mem _ List.mem_cons_self
  obtain ⟨turn, cache, hdemand, -, hturn, hobliged, htraffic⟩ :=
    hmet (.ofRange range) 2 [Cause.rpc .malformed] [output 1, output 0] (by decide) hresponse
  refine ⟨fresh, cache, turn, hof, hturn, hdemand, htraffic, ?_⟩
  intro again cache' hboth hagain hsame
  exact hrepeat turn again cache' hboth hobliged hagain (hsame.trans hdemand.symm)
    (by rw [hdemand]; decide)

end Watchtower
