import Watchtower.Json.Record
import Watchtower.Proofs.Skipping
import Mathlib.Data.List.Forall2

/-!
# Reading objects with known members

* `Local read` : what is read of a value depends on no more than the value;
* `Found` : what one member of an object adds to the values found;
* `Fits fields ms values` : each field is a member exactly once and its value is read there;
* `record_eq_ok_iff` : an object is read if it fits, whatever other members it has and in whatever
  order they stand;
* `spells_of_record` : no object is read with a name in it that is not Unicode;
* `Listed`, `elements_eq_ok_iff` : an array is read if it has a value for each field in turn;
* `local_record` : a record is a field of another as a hash or a number is.
-/

namespace Watchtower.Json

/-- What is read of a value is what is read of it alone. -/
def Local {α : Type} (read : Reader α) : Prop := Takes Value read fun v x => read v = .ok (x, [])

theorem Local.of_exists {α : Type} {read : Reader α}
    (h : ∀ v, Value v → ∃ G : α → Prop, ∀ l rest, Blank l → Ends rest → ∀ x r,
      read (l ++ (v ++ rest)) = .ok (x, r) ↔ G x ∧ r = rest) : Local read := by
  intro v hv l rest hl hrest x r
  obtain ⟨G, hG⟩ := h v hv
  have halone := hG [] [] blank_nil nofun x []
  rw [List.nil_append, List.append_nil] at halone
  rw [hG l rest hl hrest]
  simp only [halone, and_true]

theorem Takes.isLocal {α : Type} {read : Reader α} {F : Bytes → α → Prop}
    (h : Takes Value read F) : Local read :=
  Local.of_exists fun v hv => ⟨F v, h v hv⟩

/-- What is read of a value, without what stands around it. -/
theorem Takes.alone_iff {α : Type} {read : Reader α} {F : Bytes → α → Prop} {v : Bytes} {x : α}
    (h : Takes Value read F) (hv : Value v) : read v = .ok (x, []) ↔ F v x := by
  have halone := h v hv [] [] blank_nil nofun x []
  rw [List.nil_append, List.append_nil] at halone
  rw [halone]
  simp

namespace Reader

variable {V : Type} {fields : List (Member V)}

/-! ## Members -/

/-- A member of another name adds nothing. One of a field adds what is read of its value, if there
is none yet. -/
inductive Found (fields : List (Member V)) :
    List (Bytes × V) → Bytes × Bytes → List (Bytes × V) → Prop
  | other {found : List (Bytes × V)} {m : Bytes × Bytes} :
      fields.find? (·.name = m.1) = none → Found fields found m found
  | known {found : List (Bytes × V)} {m : Bytes × Bytes} {field : Member V} {x : V} :
      fields.find? (·.name = m.1) = some field → found.lookup m.1 = none →
      field.read m.2 = .ok (x, []) → Found fields found m ((m.1, x) :: found)

/-- What a member adds whose name is given as it is written. -/
def FoundVerbatim (fields : List (Member V)) (found : List (Bytes × V)) (m : Bytes × Bytes)
    (found' : List (Bytes × V)) : Prop :=
  ∃ name, Spells m.1 name ∧ Found fields found (name, m.2) found'

theorem takes_member_verbatim (hlocal : ∀ field ∈ fields, Local field.read)
    (found : List (Bytes × V)) (m : Bytes × Bytes) :
    Takes (MemberText Verbatim Value m) (member fields found) fun _ =>
      FoundVerbatim fields found m := by
  rintro v ⟨n, a, b, rfl, ⟨rfl, hbody⟩, ha, hb, hv⟩ l rest hl hrest found' r
  simp only [List.cons_append, List.append_assoc, member]
  rw [bind_of_ok (mark_of_blank hl (by decide)), bind_eq_ok_iff]
  simp only [text_true_eq_ok_iff hbody, and_assoc, exists_and_left, exists_eq_left, FoundVerbatim,
    ← exists_and_right]
  refine exists_congr fun name => and_congr_right fun _ => ?_
  cases hfind : fields.find? (·.name = name) with
  | none =>
    have hskip := (takes_skipValue m.2 hv b rest hb hrest () rest).mpr ⟨trivial, rfl⟩
    simp only
    rw [bind_of_ok (mark_of_blank ha (by decide)), bind_of_ok hskip]
    constructor
    · rintro ⟨⟩
      exact ⟨.other hfind, rfl⟩
    · rintro ⟨_ | ⟨hknown, -, -⟩, rfl⟩
      · rfl
      · rw [hfind] at hknown
        cases hknown
  | some field =>
    have hread := hlocal field (List.mem_of_find?_eq_some hfind) m.2 hv b rest hb hrest
    simp only
    cases hlookup : found.lookup name with
    | some x =>
      refine iff_of_false nofun ?_
      rintro ⟨hother | ⟨-, hnone, -⟩, -⟩
      · rw [hfind] at hother
        cases hother
      · rw [hlookup] at hnone
        cases hnone
    | none =>
      rw [if_neg (by simp), bind_of_ok (mark_of_blank ha (by decide)), bind_eq_ok_iff]
      constructor
      · rintro ⟨x, middle, htake, hpure⟩
        obtain ⟨hx, rfl⟩ := (hread x middle).mp htake
        cases hpure
        exact ⟨.known hfind hlookup hx, rfl⟩
      · rintro ⟨hother | ⟨hknown, -, hx⟩, rfl⟩
        · rw [hfind] at hother
          cases hother
        · rw [hfind] at hknown
          cases hknown
          exact ⟨_, r, (hread _ r).mpr ⟨hx, rfl⟩, rfl⟩

/-- The same for a name that is given as it reads, and not as it is written. -/
theorem takes_member (hlocal : ∀ field ∈ fields, Local field.read) (found : List (Bytes × V))
    (m : Bytes × Bytes) :
    Takes (MemberText Spells Value m) (member fields found) fun _ => Found fields found m := by
  rintro v ⟨n, a, b, rfl, hname, ha, hb, hv⟩ l rest hl hrest found' r
  rw [takes_member_verbatim hlocal found (n, m.2) _
    ⟨n, a, b, rfl, ⟨rfl, hname.stringBody⟩, ha, hb, hv⟩ l rest hl hrest found' r]
  constructor
  · rintro ⟨⟨name, hspells, hfound⟩, hr⟩
    rw [hspells.unique hname] at hfound
    exact ⟨hfound, hr⟩
  · rintro ⟨hfound, hr⟩
    exact ⟨⟨m.1, hname, hfound⟩, hr⟩

/-! ## Objects -/

section
variable {α : Type} {P : α → Bytes → Prop} {step : List (Bytes × V) → α → List (Bytes × V) → Prop}
  {as : List α} {l u rest : Bytes}

theorem record_brace (hitem : ∀ found a, Takes (P a) (member fields found) fun _ => step found a)
    (hstart : ∀ a t, P a t → ∃ b t', t = b :: t' ∧ b ∈ starters) (h : Content P as u) (hl : Blank l)
    {values : List V} {r : Bytes} :
    record fields (l ++ 0x7b :: (u ++ 0x7d :: rest)) = .ok (values, r) ↔
      (∃ found, Run step [] as found ∧
        fields.mapM (fun field => found.lookup field.name) = some values) ∧ r = rest := by
  have hclose : 0x7d ∈ closers := by decide
  unfold record
  rw [bind_of_ok (peek_of_blank hl (by decide)), if_pos rfl, bind_of_ok (mark_cons (by decide)),
    bind_eq_ok_iff]
  simp only [items_eq_ok_iff hitem hclose hstart h]
  constructor
  · rintro ⟨found, middle, ⟨hrun, rfl⟩, hvalues⟩
    cases hmap : fields.mapM (fun field => found.lookup field.name) with
    | none =>
      rw [hmap] at hvalues
      cases hvalues
    | some values' =>
      rw [hmap] at hvalues
      cases hvalues
      exact ⟨⟨found, hrun, hmap⟩, rfl⟩
  · rintro ⟨⟨found, hrun, hmap⟩, rfl⟩
    refine ⟨found, r, ⟨hrun, rfl⟩, ?_⟩
    rw [hmap]
    rfl

theorem record_bracket (hl : Blank l) :
    record fields (l ++ 0x5b :: rest) = elements fields true rest := by
  unfold record
  rw [bind_of_ok (peek_of_blank hl (by decide)), if_neg (by decide), if_pos rfl,
    bind_of_ok (mark_cons (by decide))]

theorem record_ne_ok {b : UInt8} (hl : Blank l) (hb : b ∈ starters) (hbrace : b ≠ 0x7b)
    (hbracket : b ≠ 0x5b) {p : List V × Bytes} : record fields (l ++ b :: rest) ≠ .ok p := by
  unfold record
  rw [bind_of_ok (peek_of_blank hl (starters_apart b hb).1), if_neg hbrace, if_neg hbracket]
  exact unexpected_ne_ok

end

/-- Each field is a member exactly once, and its value is read there. -/
def Fits (fields : List (Member V)) (ms : List (Bytes × Bytes)) (values : List V) : Prop :=
  List.Forall₂ (fun field x => ∃ v, ms.filter (·.1 = field.name) = [(field.name, v)] ∧
    field.read v = .ok (x, [])) fields values

theorem mapM_eq_some_iff {α β : Type} {f : α → Option β} {list : List α} {values : List β} :
    list.mapM f = some values ↔ List.Forall₂ (fun a b => f a = some b) list values := by
  induction list generalizing values with
  | nil => cases values <;> simp
  | cons a list ih =>
    rw [List.mapM_cons, List.forall₂_cons_left_iff]
    simp only [← ih]
    cases f a with
    | none => simp
    | some b =>
      cases list.mapM f with
      | none => simp
      | some bs => simp [eq_comm]

/-- What a run over the members has found of a field. -/
theorem lookup_of_run {s found : List (Bytes × V)} {ms : List (Bytes × Bytes)} {field : Member V}
    (hfield : fields.find? (·.name = field.name) = some field) (h : Run (Found fields) s ms found) :
    (ms.filter (·.1 = field.name) = [] ∧ found.lookup field.name = s.lookup field.name) ∨
      s.lookup field.name = none ∧ ∃ v x, ms.filter (·.1 = field.name) = [(field.name, v)] ∧
        field.read v = .ok (x, []) ∧ found.lookup field.name = some x := by
  induction h with
  | nil s => exact .inl ⟨rfl, rfl⟩
  | @cons s s1 found m ms hstep _ ih =>
    cases hstep with
    | other hother =>
      have hne : m.1 ≠ field.name := by
        intro hname
        rw [hname, hfield] at hother
        cases hother
      rw [List.filter_cons_of_neg (by simpa using hne)]
      exact ih
    | @known field' x hknown hnone hread =>
      by_cases hname : m.1 = field.name
      · rw [hname] at hknown hnone ih
        rw [hfield] at hknown
        cases hknown
        rw [List.filter_cons_of_pos (by simpa using hname)]
        rw [List.lookup_cons_self] at ih
        obtain ⟨hfilter, hlookup⟩ | ⟨hlookup, -⟩ := ih
        · refine .inr ⟨hnone, m.2, x, ?_, hread, hlookup⟩
          rw [hfilter, ← hname]
        · cases hlookup
      · rw [List.filter_cons_of_neg (by simpa using hname)]
        have hother : (field.name == m.1) = false := by simpa using Ne.symm hname
        rw [List.lookup_cons, hother] at ih
        exact ih

/-- Members can be run over if no field is among them that has been found, and the value of each one
that is can be read. -/
theorem exists_run {s : List (Bytes × V)} {ms : List (Bytes × Bytes)}
    (h : ∀ field name, fields.find? (·.name = name) = some field → ms.filter (·.1 = name) = [] ∨
      s.lookup name = none ∧ ∃ v x, ms.filter (·.1 = name) = [(name, v)] ∧
        field.read v = .ok (x, [])) : ∃ found, Run (Found fields) s ms found := by
  induction ms generalizing s with
  | nil => exact ⟨s, .nil s⟩
  | cons m ms ih =>
    cases hfind : fields.find? (·.name = m.1) with
    | none =>
      have hms : ∀ field name, fields.find? (·.name = name) = some field →
          (m :: ms).filter (·.1 = name) = ms.filter (·.1 = name) := by
        intro field name hname
        refine List.filter_cons_of_neg ?_
        simp only [decide_eq_true_eq]
        rintro rfl
        rw [hfind] at hname
        cases hname
      obtain ⟨found, hrun⟩ := ih fun field name hname => by
        rw [← hms field name hname]
        exact h field name hname
      exact ⟨found, .cons (.other hfind) hrun⟩
    | some field =>
      have hself : (m :: ms).filter (·.1 = m.1) = m :: ms.filter (·.1 = m.1) :=
        List.filter_cons_of_pos (by simp)
      obtain hnone | ⟨hlookup, v, x, hfilter, hread⟩ := h field m.1 hfind
      · rw [hself] at hnone
        cases hnone
      · rw [hself, List.cons.injEq] at hfilter
        obtain ⟨hm, hfilter⟩ := hfilter
        have hread : field.read m.2 = .ok (x, []) := by rw [hm]; exact hread
        obtain ⟨found, hrun⟩ := ih (s := (m.1, x) :: s) fun field' name hname => by
          by_cases heq : m.1 = name
          · rw [← heq]
            exact .inl hfilter
          · have hother : (name == m.1) = false := by simpa using Ne.symm heq
            have hname := h field' name hname
            rw [List.filter_cons_of_neg (by simpa using heq)] at hname
            rw [List.lookup_cons, hother]
            exact hname
        exact ⟨found, .cons (.known hfind hlookup hread) hrun⟩

theorem find?_of_mem {field : Member V} (hnodup : (fields.map Member.name).Nodup)
    (h : field ∈ fields) : fields.find? (·.name = field.name) = some field := by
  induction fields with
  | nil => cases h
  | cons first fields ih =>
    rw [List.map_cons, List.nodup_cons] at hnodup
    obtain rfl | h := List.mem_cons.mp h
    · exact List.find?_cons_of_pos (by simp)
    · rw [List.find?_cons_of_neg, ih hnodup.2 h]
      intro hname
      simp only [decide_eq_true_eq] at hname
      exact hnodup.1 (hname ▸ List.mem_map_of_mem h)

theorem lookup_run_iff {found : List (Bytes × V)} {ms : List (Bytes × Bytes)} {field : Member V}
    (hfield : fields.find? (·.name = field.name) = some field) (h : Run (Found fields) [] ms found)
    (x : V) : found.lookup field.name = some x ↔
      ∃ v, ms.filter (·.1 = field.name) = [(field.name, v)] ∧ field.read v = .ok (x, []) := by
  obtain ⟨hfilter, hlookup⟩ | ⟨-, v, y, hfilter, hread, hlookup⟩ := lookup_of_run hfield h
  · rw [hlookup, hfilter]
    simp
  · rw [hlookup, hfilter]
    constructor
    · rintro ⟨⟩
      exact ⟨v, rfl, hread⟩
    · rintro ⟨w, hw, hx⟩
      cases hw
      rw [hread] at hx
      cases hx
      rfl

section
variable {α β : Type} {R S : α → β → Prop} {as : List α} {bs : List β}

theorem forall₂_congr_of_mem (h : ∀ a ∈ as, ∀ b, R a b ↔ S a b) :
    List.Forall₂ R as bs ↔ List.Forall₂ S as bs := by
  induction as generalizing bs with
  | nil => simp
  | cons a as ih =>
    simp only [List.forall₂_cons_left_iff, h a List.mem_cons_self,
      ih fun b hb => h b (List.mem_cons_of_mem a hb)]

theorem exists_of_forall₂ (h : List.Forall₂ R as bs) {a : α} (ha : a ∈ as) : ∃ b, R a b := by
  induction h with
  | nil => cases ha
  | cons hab _ ih =>
    cases ha with
    | head => exact ⟨_, hab⟩
    | tail _ ha => exact ih ha

end

theorem run_iff_fits (hnodup : (fields.map Member.name).Nodup) {ms : List (Bytes × Bytes)}
    {values : List V} : (∃ found, Run (Found fields) [] ms found ∧
      fields.mapM (fun field => found.lookup field.name) = some values) ↔
      Fits fields ms values := by
  have hfits {found : List (Bytes × V)} (hrun : Run (Found fields) [] ms found) :
      fields.mapM (fun field => found.lookup field.name) = some values ↔ Fits fields ms values := by
    rw [mapM_eq_some_iff]
    exact forall₂_congr_of_mem fun field hfield x =>
      lookup_run_iff (find?_of_mem hnodup hfield) hrun x
  constructor
  · rintro ⟨found, hrun, hvalues⟩
    exact (hfits hrun).mp hvalues
  · intro h
    obtain ⟨found, hrun⟩ := exists_run (s := []) fun field name hname => by
      have hfield := List.mem_of_find?_eq_some hname
      obtain rfl : field.name = name := by simpa using List.find?_some hname
      obtain ⟨x, v, hfilter, hread⟩ := exists_of_forall₂ h hfield
      exact .inr ⟨rfl, v, x, hfilter, hread⟩
    exact ⟨found, hrun, (hfits hrun).mpr h⟩

/-- An object is read if it fits. -/
theorem record_eq_ok_iff (hlocal : ∀ field ∈ fields, Local field.read)
    (hnodup : (fields.map Member.name).Nodup) {ms : List (Bytes × Bytes)} {l t rest : Bytes}
    (h : ObjectText ms t) (hl : Blank l) {values : List V} {r : Bytes} :
    record fields (l ++ (t ++ rest)) = .ok (values, r) ↔ Fits fields ms values ∧ r = rest := by
  obtain ⟨u, rfl, hu⟩ := h
  rw [← run_iff_fits hnodup, List.cons_append, List.append_assoc, List.cons_append, List.nil_append]
  exact record_brace (takes_member hlocal) (fun _ _ => MemberText.head) hu hl

/-- An object that nothing stands around. -/
theorem record_alone_iff (hlocal : ∀ field ∈ fields, Local field.read)
    (hnodup : (fields.map Member.name).Nodup) {ms : List (Bytes × Bytes)} {t : Bytes}
    (h : ObjectText ms t) {values : List V} {r : Bytes} :
    record fields t = .ok (values, r) ↔ Fits fields ms values ∧ r = [] := by
  have halone : record fields ([] ++ (t ++ [])) = .ok (values, r) ↔
      Fits fields ms values ∧ r = [] := record_eq_ok_iff hlocal hnodup h blank_nil
  rwa [List.nil_append, List.append_nil] at halone

theorem spells_of_run {found found' : List (Bytes × V)} {ms : List (Bytes × Bytes)}
    (h : Run (FoundVerbatim fields) found ms found') : ∀ m ∈ ms, ∃ name, Spells m.1 name := by
  induction h with
  | nil => nofun
  | cons hstep _ ih =>
    obtain ⟨name, hname, -⟩ := hstep
    exact List.forall_mem_cons.mpr ⟨⟨name, hname⟩, ih⟩

/-- Every name of an object that is read is Unicode, also of the members that are passed over. -/
theorem spells_of_record (hlocal : ∀ field ∈ fields, Local field.read)
    {ms : List (Bytes × Bytes)} {l u rest : Bytes} (hu : Content (MemberText Verbatim Value) ms u)
    (hl : Blank l) {values : List V} {r : Bytes}
    (h : record fields (l ++ 0x7b :: (u ++ 0x7d :: rest)) = .ok (values, r)) :
    ∀ m ∈ ms, ∃ name, Spells m.1 name := by
  rw [record_brace (takes_member_verbatim hlocal) (fun _ _ => MemberText.head) hu hl] at h
  obtain ⟨⟨found, hrun, -⟩, -⟩ := h
  exact spells_of_run hrun

/-! ## Arrays -/

/-- The values of an array are read for the fields in their order. -/
inductive Listed : List (Member V) → List Bytes → List V → Prop
  | nil : Listed [] [] []
  | cons {field : Member V} {fields : List (Member V)} {v : Bytes} {vs : List Bytes} {x : V}
      {values : List V} : field.read v = .ok (x, []) → Listed fields vs values →
      Listed (field :: fields) (v :: vs) (x :: values)

theorem elements_nil {l rest : Bytes} {b : UInt8} (first : Bool) (hl : Blank l)
    (hb : isBlank b = false) : elements ([] : List (Member V)) first (l ++ b :: rest) =
      if b = 0x5d then .ok ([], rest) else .error .malformed := by
  have hmark : mark 0x5d (l ++ b :: rest) =
      if b = 0x5d then .ok ((), rest) else .error .malformed := by
    unfold mark
    rw [bind_of_ok (next_of_blank hl hb)]
    by_cases hclose : b = 0x5d
    · rw [if_pos hclose, if_neg (by simpa using hclose)]
      rfl
    · rw [if_neg hclose, if_pos hclose]
      rfl
  rw [elements]
  change (mark 0x5d (l ++ b :: rest) >>= _) = _
  rw [hmark]
  split <;> rfl

/-- An element and those after it. -/
theorem elements_cons {l rest : Bytes} {b : UInt8} {field : Member V} (first : Bool) (hl : Blank l)
    (hb : isBlank b = false) : elements (field :: fields) first (l ++ b :: rest) =
      if b = 0x5d then .error .mismatch else
      ((if first then pure () else mark 0x2c) >>= fun () => field.read >>= fun value =>
        elements fields false >>= fun values => pure (value :: values)) (b :: rest) := by
  rw [elements, bind_of_ok (peek_of_blank hl hb)]
  by_cases hclose : b = 0x5d
  · rw [if_pos hclose, if_pos hclose]
    rfl
  · rw [if_neg hclose, if_neg hclose]
    cases first <;> rfl

/-- An element that is not preceded by a comma, and those after it. -/
def element (field : Member V) (fields : List (Member V)) : Reader (List V) := do
  let value ← field.read
  let values ← elements fields false
  return value :: values

theorem elements_comma {l rest : Bytes} {field : Member V} (hl : Blank l) :
    elements (field :: fields) false (l ++ 0x2c :: rest) = element field fields rest := by
  rw [elements_cons false hl (by decide), if_neg (by decide), if_neg (by decide),
    bind_of_ok (mark_cons (by decide))]
  rfl

theorem elements_first {l rest : Bytes} {b : UInt8} {field : Member V} (hl : Blank l)
    (hb : b ∈ starters) :
    elements (field :: fields) true (l ++ b :: rest) = element field fields (b :: rest) := by
  have hclose : b ≠ 0x5d := by
    rintro rfl
    exact absurd hb (by decide)
  rw [elements_cons true hl (starters_apart b hb).1, if_neg hclose, if_pos rfl]
  rfl

theorem listed_cons_iff {field : Member V} {v : Bytes} {vs : List Bytes} {values : List V} :
    Listed (field :: fields) (v :: vs) values ↔
      ∃ x xs, field.read v = .ok (x, []) ∧ Listed fields vs xs ∧ x :: xs = values := by
  constructor
  · rintro (_ | ⟨hread, hlisted⟩)
    exact ⟨_, _, hread, hlisted, rfl⟩
  · rintro ⟨x, xs, hread, hlisted, rfl⟩
    exact .cons hread hlisted

theorem element_eq_ok_iff {vs : List Bytes} {u rest : Bytes} (h : Joined (ElementText Value) vs u)
    {field : Member V} (hlocal : ∀ f ∈ field :: fields, Local f.read) {values : List V}
    {r : Bytes} :
    element field fields (u ++ 0x5d :: rest) = .ok (values, r) ↔
      Listed (field :: fields) vs values ∧ r = rest := by
  -- what is left after the element decides whether another field can be read
  have hstep {v l space rest : Bytes} {b : UInt8} {field : Member V} {fields : List (Member V)}
      {values : List V} {r : Bytes} (hread : Local field.read) (hl : Blank l) (hv : Value v)
      (hspace : Blank space) (hb : b ∈ followers) :
      element field fields (l ++ (v ++ (space ++ b :: rest))) = .ok (values, r) ↔
        ∃ x xs, field.read v = .ok (x, []) ∧
          elements fields false (space ++ b :: rest) = .ok (xs, r) ∧ x :: xs = values := by
    unfold element
    rw [bind_eq_ok_iff]
    constructor
    · rintro ⟨x, middle, htake, hmore⟩
      obtain ⟨hx, rfl⟩ := (hread v hv l _ hl (ends_of_blank hspace hb) x middle).mp htake
      obtain ⟨xs, middle, hxs, hpure⟩ := bind_eq_ok_iff.mp hmore
      cases hpure
      exact ⟨x, xs, hx, hxs, rfl⟩
    · rintro ⟨x, xs, hx, hxs, rfl⟩
      refine ⟨x, _, (hread v hv l _ hl (ends_of_blank hspace hb) x _).mpr ⟨hx, rfl⟩, ?_⟩
      exact bind_eq_ok_iff.mpr ⟨xs, r, hxs, rfl⟩
  induction h generalizing field fields values r with
  | @last v l t space hl ht hspace =>
    obtain ⟨rfl, hv⟩ := ht
    simp only [List.append_assoc]
    rw [hstep (hlocal field List.mem_cons_self) hl hv hspace (by decide), listed_cons_iff]
    cases fields with
    | nil =>
      rw [elements_nil false hspace (by decide), if_pos rfl]
      constructor
      · rintro ⟨x, xs, hx, hxs, rfl⟩
        cases hxs
        exact ⟨⟨x, [], hx, .nil, rfl⟩, rfl⟩
      · rintro ⟨⟨x, xs, hx, hlisted, rfl⟩, rfl⟩
        cases hlisted
        exact ⟨x, [], hx, rfl, rfl⟩
    | cons next fields =>
      rw [elements_cons false hspace (by decide), if_pos rfl]
      constructor
      · rintro ⟨x, xs, -, hxs, -⟩
        cases hxs
      · rintro ⟨⟨x, xs, -, hlisted, -⟩, -⟩
        cases hlisted
  | @cons v vs l t space u hl ht hspace hmore ih =>
    obtain ⟨rfl, hv⟩ := ht
    simp only [List.append_assoc, List.cons_append]
    rw [hstep (hlocal field List.mem_cons_self) hl hv hspace (by decide), listed_cons_iff]
    cases fields with
    | nil =>
      rw [elements_nil false hspace (by decide), if_neg (by decide)]
      constructor
      · rintro ⟨x, xs, -, hxs, -⟩
        cases hxs
      · rintro ⟨⟨x, xs, -, hlisted, -⟩, -⟩
        cases hlisted
        cases hmore
    | cons next fields =>
      rw [elements_comma hspace]
      simp only [ih fun f hf => hlocal f (List.mem_cons_of_mem _ hf)]
      constructor
      · rintro ⟨x, xs, hx, ⟨hlisted, hr⟩, hvalues⟩
        exact ⟨⟨x, xs, hx, hlisted, hvalues⟩, hr⟩
      · rintro ⟨⟨x, xs, hx, hlisted, hvalues⟩, hr⟩
        exact ⟨x, xs, hx, ⟨hlisted, hr⟩, hvalues⟩

/-- An array is read if it has a value for each field. -/
theorem elements_eq_ok_iff (hlocal : ∀ field ∈ fields, Local field.read) {vs : List Bytes}
    {u rest : Bytes} (h : Content (ElementText Value) vs u) {values : List V} {r : Bytes} :
    elements fields true (u ++ 0x5d :: rest) = .ok (values, r) ↔
      Listed fields vs values ∧ r = rest := by
  have hstart : ∀ v t, ElementText Value v t → ∃ b t', t = b :: t' ∧ b ∈ starters := by
    rintro v t ⟨rfl, hv⟩
    exact hv.shape.head
  cases h with
  | empty hu =>
    cases fields with
    | nil =>
      rw [elements_nil true hu (by decide), if_pos rfl]
      constructor
      · rintro ⟨⟩
        exact ⟨.nil, rfl⟩
      · rintro ⟨⟨⟩, rfl⟩
        rfl
    | cons field fields =>
      rw [elements_cons true hu (by decide), if_pos rfl]
      exact iff_of_false nofun nofun
  | joined h =>
    obtain ⟨l, b, u, rfl, hl, hb, h⟩ := h.start hstart
    rw [List.append_assoc, List.cons_append]
    cases fields with
    | nil =>
      have hclose : b ≠ 0x5d := by
        rintro rfl
        exact absurd hb (by decide)
      rw [elements_nil true hl (starters_apart b hb).1, if_neg hclose]
      refine iff_of_false nofun ?_
      rintro ⟨⟨⟩, -⟩
      cases h
    | cons field fields =>
      rw [elements_first hl hb]
      exact element_eq_ok_iff h hlocal

/-! ## Records as values of members -/

theorem local_record (hlocal : ∀ field ∈ fields, Local field.read) : Local (record fields) := by
  refine .of_exists fun v hv => ?_
  have hother {b : UInt8} {u : Bytes} (hb : b ∈ starters) (hbrace : b ≠ 0x7b)
      (hbracket : b ≠ 0x5b) : ∃ G : List V → Prop, ∀ l rest, Blank l → Ends rest → ∀ x r,
        record fields (l ++ (b :: u ++ rest)) = .ok (x, r) ↔ G x ∧ r = rest := by
    refine ⟨fun _ => False, fun l rest hl _ x r => ?_⟩
    exact iff_of_false (record_ne_ok hl hb hbrace hbracket) nofun
  cases hv.shape with
  | null => exact hother (by decide) (by decide) (by decide)
  | true => exact hother (by decide) (by decide) (by decide)
  | false => exact hother (by decide) (by decide) (by decide)
  | number hn =>
    obtain ⟨b, u, rfl, hb⟩ := hn.head
    have hbrace : b ≠ 0x7b := by
      rintro rfl
      exact absurd hb (by decide)
    have hbracket : b ≠ 0x5b := by
      rintro rfl
      exact absurd hb (by decide)
    exact hother (mem_starters hb) hbrace hbracket
  | string => exact hother (by decide) (by decide) (by decide)
  | @array vs u hu =>
    refine ⟨Listed fields vs, fun l rest hl _ x r => ?_⟩
    rw [List.cons_append, record_bracket hl, List.append_assoc]
    exact elements_eq_ok_iff hlocal hu
  | @object ms u hu =>
    refine ⟨fun values => ∃ found, Run (FoundVerbatim fields) [] ms found ∧
      fields.mapM (fun field => found.lookup field.name) = some values, fun l rest hl _ x r => ?_⟩
    rw [List.cons_append, List.append_assoc]
    exact record_brace (takes_member_verbatim hlocal) (fun _ _ => MemberText.head) hu hl

end Reader

end Watchtower.Json
