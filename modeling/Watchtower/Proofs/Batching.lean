import Watchtower.Proofs.Creation

/-!
# A batch of outputs and requests for single ones

The outputs at many blocks are requested a hundred together. A node answers each request for itself,
so that the batch comes to what the requests would come to alone.

* `x.asked answers` : what an inquiry asks, in order;
* `Cut size list pieces` : a list in pieces of a size, the last of which may be shorter;
* `alone node block`, `together piece` : a single request, and those that are in flight together;
* `outputs_as_singles` : a batch gives an output for each block, in order, or a fault; after a piece
  with a failing request no other is requested.
-/

namespace Watchtower

namespace Inquiry

variable {α β : Type} {answers : (q : Chain.Ask) → Chain.Reply q}

def asked (answers : (q : Chain.Ask) → Chain.Reply q) (x : Inquiry α) : List Chain.Ask :=
  (x.run.exchanges (fun q s => (answers q, s)) ()).map Exchange.ask

theorem asked_bind (x : Inquiry α) (f : α → Inquiry β) :
    (x >>= f).asked answers = x.asked answers ++ match x.outcome answers with
      | some (.ok a) => (f a).asked answers
      | _ => [] := by
  unfold asked outcome
  change ((x.run >>= fun r => ExceptT.bindCont f r).exchanges _ ()).map Exchange.ask = _
  rw [Program.exchanges_bind, List.map_append]
  congr 1
  cases x.run.run (fun q s => (answers q, s)) () with
  | none => rfl
  | some r =>
    obtain ⟨fault | a, -⟩ := r
    · rfl
    · rfl

theorem asked_bind_of_ok {x : Inquiry α} {f : α → Inquiry β} {a : α}
    (h : x.outcome answers = some (.ok a)) :
    (x >>= f).asked answers = x.asked answers ++ (f a).asked answers := by
  rw [asked_bind, h]

theorem asked_bind_of_error {x : Inquiry α} {f : α → Inquiry β} {fault : Fault}
    (h : x.outcome answers = some (.error fault)) :
    (x >>= f).asked answers = x.asked answers := by
  rw [asked_bind, h, List.append_nil]

theorem asked_ofExcept (e : Except Fault α) : (ofExcept e).asked answers = [] := by
  cases e with
  | ok a => rfl
  | error fault => rfl

theorem outcome_ofExcept (e : Except Fault α) : (ofExcept e).outcome answers = some e := by
  cases e with
  | ok a => rfl
  | error fault => rfl

theorem outcome_query (q : Chain.Ask) :
    outcome answers (liftM (query q) : Inquiry (Chain.Reply q)) = some (.ok (answers q)) := rfl

theorem asked_query (q : Chain.Ask) :
    asked answers (liftM (query q) : Inquiry (Chain.Reply q)) = [q] := rfl

end Inquiry

/-! ## Lists that are worked off until one element fails -/

section
variable {α β ε : Type} {f : α → Except ε β}

theorem mapM_eq_ok_iff {list : List α} {values : List β} :
    list.mapM f = .ok values ↔ list.map f = values.map .ok := by
  induction list generalizing values with
  | nil => cases values <;> simp [pure, Except.pure]
  | cons a list ih =>
    rw [List.mapM_cons, List.map_cons]
    cases ha : f a with
    | error e => cases values <;> simp [bind, Except.bind]
    | ok b =>
      cases hlist : list.mapM f with
      | error e =>
        cases values with
        | nil => simp [bind, Except.bind]
        | cons c values =>
          have hne : list.map f ≠ values.map .ok := fun h => by
            have hok := ih.mpr h
            rw [hlist] at hok
            cases hok
          simp [bind, Except.bind, hne]
      | ok bs =>
        cases values with
        | nil => simp [bind, Except.bind, pure, Except.pure]
        | cons c values =>
          have hiff : bs = values ↔ list.map f = values.map .ok := by
            rw [← ih, hlist, Except.ok.injEq]
          simp [bind, Except.bind, pure, Except.pure, hiff]

theorem exists_of_mapM_eq_error {list : List α} {e : ε} (h : list.mapM f = .error e) :
    ∃ a ∈ list, f a = .error e := by
  induction list with
  | nil => cases h
  | cons a list ih =>
    rw [List.mapM_cons] at h
    cases ha : f a with
    | error e' =>
      rw [ha] at h
      obtain rfl : e' = e := Except.error.inj h
      exact ⟨a, List.mem_cons_self, ha⟩
    | ok b =>
      rw [ha] at h
      cases hlist : list.mapM f with
      | ok bs =>
        rw [hlist] at h
        cases h
      | error e' =>
        rw [hlist] at h
        obtain rfl : e' = e := Except.error.inj h
        obtain ⟨c, hc, hfc⟩ := ih hlist
        exact ⟨c, List.mem_cons_of_mem a hc, hfc⟩

theorem exists_mapM_eq_ok_iff {list : List α} :
    (∃ values, list.mapM f = .ok values) ↔ ∀ a ∈ list, ∃ b, f a = .ok b := by
  constructor
  · rintro ⟨values, h⟩ a ha
    have hmem : f a ∈ values.map .ok := mapM_eq_ok_iff.mp h ▸ List.mem_map_of_mem ha
    obtain ⟨b, -, hb⟩ := List.mem_map.mp hmem
    exact ⟨b, hb.symm⟩
  · intro h
    cases hlist : list.mapM f with
    | ok values => exact ⟨values, rfl⟩
    | error e =>
      obtain ⟨a, ha, he⟩ := exists_of_mapM_eq_error hlist
      obtain ⟨b, hb⟩ := h a ha
      rw [he] at hb
      cases hb

/-- A list cut into pieces of `size` elements, the last of which may be shorter. -/
inductive Cut (size : Nat) : List α → List (List α) → Prop
  | nil : Cut size [] []
  | cons {piece rest : List α} {pieces : List (List α)} (nonempty : piece ≠ [])
      (short : piece.length ≤ size) (full : rest ≠ [] → piece.length = size)
      (others : Cut size rest pieces) : Cut size (piece ++ rest) (piece :: pieces)

theorem Cut.flatten_eq {size : Nat} {list : List α} {pieces : List (List α)}
    (h : Cut size list pieces) : pieces.flatten = list := by
  induction h with
  | nil => rfl
  | cons _ _ _ _ ih => rw [List.flatten_cons, ih]

theorem Cut.nonempty {size : Nat} {list piece : List α} {pieces : List (List α)}
    (h : Cut size list (piece :: pieces)) : piece ≠ [] := by
  cases h with
  | cons nonempty short full others => exact nonempty

theorem Cut.take {size : Nat} {piece rest : List α} {pieces : List (List α)}
    (h : Cut size (piece ++ rest) (piece :: pieces)) :
    (piece ++ rest).take size = piece ∧ (piece ++ rest).drop size = rest := by
  generalize hlist : piece ++ rest = list at h
  cases h with
  | cons nonempty short full others =>
    obtain rfl := List.append_cancel_left hlist
    rcases List.eq_nil_or_concat rest with rfl | ⟨_, _, hrest⟩
    · simp [List.take_of_length_le short, List.drop_eq_nil_of_le short]
    · have hlength := full (by simp [hrest])
      exact ⟨List.take_left' hlength, List.drop_left' hlength⟩

theorem exists_cut {size : Nat} (hsize : 0 < size) (list : List α) :
    ∃ pieces, Cut size list pieces := by
  induction hn : list.length using Nat.strongRecOn generalizing list with
  | _ n ih =>
    rcases List.eq_nil_or_concat list with rfl | ⟨_, _, hlist⟩
    · exact ⟨[], .nil⟩
    · have hpos : 0 < list.length := by simp [hlist]
      obtain ⟨pieces, hpieces⟩ := ih (list.drop size).length (by
        rw [List.length_drop]
        omega) _ rfl
      suffices hcut : Cut size (list.take size ++ list.drop size) (list.take size :: pieces) by
        rw [List.take_append_drop] at hcut
        exact ⟨_, hcut⟩
      refine Cut.cons ?_ ?_ ?_ hpieces
      · intro hnil
        have := congrArg List.length hnil
        rw [List.length_take, List.length_nil] at this
        omega
      · rw [List.length_take]
        omega
      · intro hrest
        have := List.length_pos_iff.mpr hrest
        rw [List.length_drop] at this
        rw [List.length_take]
        omega

end

namespace Rollup

open Inquiry Contract

variable {node : Request → Except RpcFault Json}

/-- What the request for one block comes to. -/
def alone (node : Request → Except RpcFault Json) (block : UInt64) : Option (Except Fault Output) :=
  (output block).outcome (ofNode node)

/-- The requests for the outputs at some blocks, in flight together. -/
def together (piece : List UInt64) : Chain.Ask := .send (piece.map .output)

theorem alone_eq (block : UInt64) :
    alone node block = some (outputOf block (node (.output block))) := by
  have hreply : reply (ofNode node) (.output block) = node (.output block) := rfl
  unfold alone output outputOf
  rw [outcome_ask, hreply]
  cases readAnswer Output.ofJson? (node (.output block)) with
  | ok o => rfl
  | error fault => rfl

theorem alone_eq_ok_iff {block : UInt64} {o : Output} : alone node block = some (.ok o) ↔
    outputOf block (node (.output block)) = .ok o := by
  rw [alone_eq, Option.some.injEq]

/-- Requests in flight together come to what they come to alone, up to the first that fails. -/
theorem outcome_outputsTogether (node : Request → Except RpcFault Json) (piece : List UInt64) :
    (outputsTogether piece).outcome (ofNode node) =
      some (piece.mapM fun block => outputOf block (node (.output block))) := by
  unfold outputsTogether
  rw [outcome_bind_of_ok (outcome_query _), outcome_ofExcept]
  change some ((piece.zip ((piece.map Request.output).map node)).mapM _) = _
  rw [List.map_map, ← List.map_prod_left_eq_zip, List.mapM_map]
  rfl

theorem asked_outputsTogether (piece : List UInt64) :
    (outputsTogether piece).asked (ofNode node) = [together piece] := by
  unfold outputsTogether
  rw [asked_bind_of_ok (outcome_query _), asked_query, asked_ofExcept]
  rfl

theorem outputs_nil : outputs [] = (return [] : Inquiry (List Output)) := by
  rw [outputs, dif_pos rfl]

section
variable {piece rest : List UInt64} {pieces : List (List UInt64)}

/-- The first piece is requested, and then the others. -/
theorem outputs_cut (h : Cut 100 (piece ++ rest) (piece :: pieces)) :
    outputs (piece ++ rest) = outputsTogether piece >>= fun fetched => do
      return fetched ++ (← outputs rest) := by
  obtain ⟨htake, hdrop⟩ := h.take
  rw [outputs, dif_neg (by simp [h.nonempty])]
  unfold batchSize
  rw [htake, hdrop]

theorem outcome_outputs_cut (h : Cut 100 (piece ++ rest) (piece :: pieces))
    (hrest : (outputs rest).outcome (ofNode node) =
      some (rest.mapM fun block => outputOf block (node (.output block)))) :
    (outputs (piece ++ rest)).outcome (ofNode node) =
      some ((piece ++ rest).mapM fun block => outputOf block (node (.output block))) := by
  rw [outputs_cut h, outcome_bind, outcome_outputsTogether, List.mapM_append]
  cases piece.mapM fun block => outputOf block (node (.output block)) with
  | error fault => rfl
  | ok fetched =>
    dsimp only
    rw [outcome_bind, hrest]
    cases rest.mapM fun block => outputOf block (node (.output block)) with
    | error fault => rfl
    | ok more => rfl

theorem asked_outputs_cut_of_ok (h : Cut 100 (piece ++ rest) (piece :: pieces))
    (hpiece : ∀ b ∈ piece, ∃ o, alone node b = some (.ok o)) :
    (outputs (piece ++ rest)).asked (ofNode node) =
      together piece :: (outputs rest).asked (ofNode node) := by
  simp only [alone_eq_ok_iff] at hpiece
  obtain ⟨fetched, hfetched⟩ := exists_mapM_eq_ok_iff.mpr hpiece
  have houtcome := outcome_outputsTogether node piece
  rw [hfetched] at houtcome
  rw [outputs_cut h, asked_bind_of_ok houtcome, asked_outputsTogether, asked_bind]
  refine congrArg (together piece :: ·) ?_
  split
  · exact List.append_nil _
  · exact List.append_nil _

theorem asked_outputs_cut_of_error (h : Cut 100 (piece ++ rest) (piece :: pieces))
    (hpiece : ¬ ∀ b ∈ piece, ∃ o, alone node b = some (.ok o)) :
    (outputs (piece ++ rest)).asked (ofNode node) = [together piece] := by
  simp only [alone_eq_ok_iff] at hpiece
  have houtcome := outcome_outputsTogether node piece
  cases hmap : piece.mapM fun block => outputOf block (node (.output block)) with
  | ok fetched => exact absurd (exists_mapM_eq_ok_iff.mp ⟨fetched, hmap⟩) hpiece
  | error fault =>
    rw [hmap] at houtcome
    rw [outputs_cut h, asked_bind_of_error houtcome, asked_outputsTogether]

end

theorem outcome_outputs {blocks : List UInt64} {pieces : List (List UInt64)}
    (h : Cut 100 blocks pieces) : (outputs blocks).outcome (ofNode node) =
      some (blocks.mapM fun block => outputOf block (node (.output block))) := by
  induction h with
  | nil =>
    rw [outputs_nil]
    rfl
  | cons nonempty short full others ih =>
    exact outcome_outputs_cut (.cons nonempty short full others) ih

/-- Pieces without a failing request are requested one after the other. -/
theorem asked_outputs_of_ok {blocks : List UInt64} {pieces : List (List UInt64)}
    (h : Cut 100 blocks pieces) (hok : ∀ b ∈ blocks, ∃ o, alone node b = some (.ok o)) :
    (outputs blocks).asked (ofNode node) = pieces.map together := by
  induction h with
  | nil =>
    rw [outputs_nil]
    rfl
  | @cons piece rest pieces nonempty short full others ih =>
    rw [asked_outputs_cut_of_ok (.cons nonempty short full others) fun b hb =>
      hok b (List.mem_append_left rest hb), ih fun b hb => hok b (List.mem_append_right piece hb)]
    rfl

/-- A piece with a failing request is the last to be requested. -/
theorem asked_outputs_of_error {before after : List (List UInt64)} {piece blocks : List UInt64}
    (h : Cut 100 blocks (before ++ piece :: after))
    (hbefore : ∀ b ∈ before.flatten, ∃ o, alone node b = some (.ok o))
    (hpiece : ¬ ∀ b ∈ piece, ∃ o, alone node b = some (.ok o)) :
    (outputs blocks).asked (ofNode node) = (before ++ [piece]).map together := by
  induction before generalizing blocks with
  | nil =>
    cases h with
    | cons nonempty short full others =>
      exact asked_outputs_cut_of_error (.cons nonempty short full others) hpiece
  | cons first before ih =>
    rw [List.flatten_cons] at hbefore
    cases h with
    | cons nonempty short full others =>
      rw [asked_outputs_cut_of_ok (.cons nonempty short full others) fun b hb =>
        hbefore b (List.mem_append_left _ hb),
        ih others fun b hb => hbefore b (List.mem_append_right _ hb)]
      rfl

/-- The fault of a batch is that of a request in the first piece in which one fails. -/
theorem exists_of_outputs_error {before after : List (List UInt64)} {piece blocks : List UInt64}
    {fault : Fault} (h : Cut 100 blocks (before ++ piece :: after))
    (hbefore : ∀ b ∈ before.flatten, ∃ o, alone node b = some (.ok o))
    (hpiece : ¬ ∀ b ∈ piece, ∃ o, alone node b = some (.ok o))
    (hfault : (blocks.mapM fun block => outputOf block (node (.output block))) = .error fault) :
    ∃ b ∈ piece, alone node b = some (.error fault) := by
  simp only [alone_eq_ok_iff] at hbefore hpiece
  rw [← h.flatten_eq, List.flatten_append, List.flatten_cons, List.mapM_append,
    List.mapM_append] at hfault
  obtain ⟨fetched, hfetched⟩ := exists_mapM_eq_ok_iff.mpr hbefore
  cases hmap : piece.mapM fun block => outputOf block (node (.output block)) with
  | ok more => exact absurd (exists_mapM_eq_ok_iff.mp ⟨more, hmap⟩) hpiece
  | error first =>
    rw [hfetched, hmap] at hfault
    obtain rfl : first = fault := Except.error.inj hfault
    obtain ⟨b, hb, hfails⟩ := exists_of_mapM_eq_error hmap
    exact ⟨b, hb, by rw [alone_eq, hfails]⟩

/-- However a node answers the requests for single blocks, the batch comes to a result. It is a list
of outputs exactly if each request for itself gives one, and then it is these, one for each listed
block and in the order of the list; otherwise it is the fault of one of the requests. The requests
are made in pieces of a hundred: all of the pieces, or those up to the first in which a request
fails, whose fault is then the result. -/
theorem outputs_as_singles (node : Request → Except RpcFault Json) (blocks : List UInt64) :
    ∃ result pieces, (outputs blocks).outcome (ofNode node) = some result ∧ Cut 100 blocks pieces ∧
      (∀ os, result = .ok os ↔ blocks.map (alone node) = os.map fun o => some (.ok o)) ∧
      ((∃ os, result = .ok os) ↔ ∀ b ∈ blocks, ∃ o, alone node b = some (.ok o)) ∧
      ((∀ b ∈ blocks, ∃ o, alone node b = some (.ok o)) →
        (outputs blocks).asked (ofNode node) = pieces.map together) ∧
      ∀ before piece after, pieces = before ++ piece :: after →
        (∀ b ∈ before.flatten, ∃ o, alone node b = some (.ok o)) →
        (¬ ∀ b ∈ piece, ∃ o, alone node b = some (.ok o)) →
        (outputs blocks).asked (ofNode node) = (before ++ [piece]).map together ∧
          ∃ b ∈ piece, ∃ fault, alone node b = some (.error fault) ∧ result = .error fault := by
  obtain ⟨pieces, hcut⟩ : ∃ pieces, Cut 100 blocks pieces := exists_cut (by decide) blocks
  refine ⟨_, pieces, outcome_outputs hcut, hcut, fun os => ?_, ?_, asked_outputs_of_ok hcut, ?_⟩
  · have halone : blocks.map (alone node) =
        (blocks.map fun block => outputOf block (node (.output block))).map some := by
      rw [List.map_map]
      exact List.map_congr_left fun b _ => alone_eq b
    have hsome : (os.map fun o => some (.ok o) : List (Option (Except Fault Output))) =
        (os.map .ok).map some := by
      rw [List.map_map]
      rfl
    rw [mapM_eq_ok_iff, halone, hsome,
      List.map_inj_right fun _ _ h => Option.some.inj h]
  · simp only [alone_eq_ok_iff]
    exact exists_mapM_eq_ok_iff
  · rintro before piece after rfl hbefore hpiece
    refine ⟨asked_outputs_of_error hcut hbefore hpiece, ?_⟩
    cases hmap : blocks.mapM fun block => outputOf block (node (.output block)) with
    | error fault =>
      obtain ⟨b, hb, hfails⟩ := exists_of_outputs_error hcut hbefore hpiece hmap
      exact ⟨b, hb, fault, hfails, rfl⟩
    | ok os =>
      have hall := exists_mapM_eq_ok_iff.mp ⟨os, hmap⟩
      simp only [alone_eq_ok_iff] at hpiece
      refine absurd (fun b hb => hall b ?_) hpiece
      rw [← hcut.flatten_eq]
      simp [hb]

end Rollup

end Watchtower
