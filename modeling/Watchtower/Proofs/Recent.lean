import Watchtower.Recency

/-!
# A bounded table keeps what was used most recently

* `Recency.recent capacity history` : of the keys used, the oldest use first, those used most
  recently, each once, as many as there is room for;
* `t.useAll keys`, `t.insertAll entries` : uses and insertions, one after another. A use of a key that
  is not there does nothing;
* `t.Follows history` : the table keeps the most recent keys of the history. It goes on to do so with
  each use that hits (`Follows.useAll`) and each insertion (`Follows.insertAll`).
-/

namespace Watchtower

section
variable {α : Type} [DecidableEq α]

/-- Repeats may be dropped before some elements are, or after. -/
theorem eraseDups_filter (p : α → Bool) :
    ∀ list : List α, (list.filter p).eraseDups = list.eraseDups.filter p
  | [] => rfl
  | a :: list => by
    have ih := eraseDups_filter p (list.filter fun b => !b == a)
    have hcomm : (list.filter fun b => !b == a).filter p =
        (list.filter p).filter fun b => !b == a := by
      rw [List.filter_filter, List.filter_filter]
      exact List.filter_congr fun b _ => Bool.and_comm _ _
    rw [List.eraseDups_cons]
    by_cases ha : p a
    · rw [List.filter_cons_of_pos ha, List.filter_cons_of_pos ha, List.eraseDups_cons, ← ih, hcomm]
    · rw [List.filter_cons_of_neg ha, List.filter_cons_of_neg ha, ← ih, hcomm]
      refine congrArg _ (List.filter_eq_self.mpr fun b hb => ?_).symm
      have hpb := (List.mem_filter.mp hb).2
      rw [Bool.not_eq_true', beq_eq_false_iff_ne]
      rintro rfl
      exact ha hpb
termination_by list => list.length
decreasing_by exact Nat.lt_succ_of_le (List.length_filter_le _ _)

theorem nodup_eraseDups : ∀ list : List α, list.eraseDups.Nodup
  | [] => .nil
  | a :: list => by
    rw [List.eraseDups_cons, List.nodup_cons]
    refine ⟨fun ha => ?_, nodup_eraseDups _⟩
    simp at ha
termination_by list => list.length
decreasing_by exact Nat.lt_succ_of_le (List.length_filter_le _ _)

theorem length_eraseDups_le : ∀ list : List α, list.eraseDups.length ≤ list.length
  | [] => Nat.le_refl 0
  | a :: list => by
    rw [List.eraseDups_cons, List.length_cons, List.length_cons]
    exact Nat.succ_le_succ (Nat.le_trans (length_eraseDups_le _) (List.length_filter_le _ _))
termination_by list => list.length
decreasing_by exact Nat.lt_succ_of_le (List.length_filter_le _ _)

/-- Of the first elements and of all, without one, the first that are one less are the same. -/
theorem take_filter_take {list : List α} (hn : list.Nodup) (a : α) (n : Nat) :
    ((list.take (n + 1)).filter (· ≠ a)).take n = (list.filter (· ≠ a)).take n := by
  induction list generalizing n with
  | nil => rfl
  | cons b list ih =>
    obtain ⟨hfresh, hn⟩ := List.nodup_cons.mp hn
    rw [List.take_succ_cons]
    by_cases hb : b = a
    · subst hb
      have hothers (l : List α) (hl : l.Sublist list) : l.filter (· ≠ b) = l := by
        refine List.filter_eq_self.mpr fun c hc => decide_eq_true ?_
        rintro rfl
        exact hfresh (hl.subset hc)
      rw [List.filter_cons_of_neg (by simp), List.filter_cons_of_neg (by simp),
        hothers _ (List.take_sublist _ _), hothers _ (.refl _), List.take_take, Nat.min_self]
    · rw [List.filter_cons_of_pos (by simpa using hb), List.filter_cons_of_pos (by simpa using hb)]
      cases n with
      | zero => rfl
      | succ n => rw [List.take_succ_cons, List.take_succ_cons, ih hn]

end

namespace Recency

variable {κ ν : Type} [DecidableEq κ]

/-! ## The most recent keys of a history -/

def recent (capacity : Nat) (history : List κ) : List κ := history.reverse.eraseDups.take capacity

theorem length_recent_le (capacity : Nat) (history : List κ) :
    (recent capacity history).length ≤ capacity := List.length_take_le _ _

/-- One more use puts a key in front of the others. -/
theorem recent_snoc (capacity : Nat) (history : List κ) (key : κ) :
    recent capacity (history ++ [key]) =
      (key :: (recent capacity history).filter (· ≠ key)).take capacity := by
  have hne : (fun b : κ => !b == key) = fun b => decide (b ≠ key) := by
    funext b
    by_cases hb : b = key <;> simp [hb]
  unfold recent
  rw [List.reverse_append, List.reverse_singleton, List.singleton_append, List.eraseDups_cons, hne,
    eraseDups_filter]
  cases capacity with
  | zero => rfl
  | succ n =>
    rw [List.take_succ_cons, List.take_succ_cons, take_filter_take (nodup_eraseDups _)]

/-- The keys used last are among the most recent, if there is room for them. -/
theorem mem_recent_append {capacity : Nat} {history last : List κ} {key : κ}
    (hroom : last.length ≤ capacity) (hkey : key ∈ last) :
    key ∈ recent capacity (history ++ last) := by
  have hlength : last.reverse.eraseDups.length ≤ capacity :=
    Nat.le_trans (length_eraseDups_le _) (by rwa [List.length_reverse])
  unfold recent
  rw [List.reverse_append, List.eraseDups_append, List.take_append,
    List.take_of_length_le hlength]
  exact List.mem_append_left _ (List.mem_eraseDups.mpr (List.mem_reverse.mpr hkey))

/-! ## Tables along a history -/

/-- The table keeps the most recent keys of the history. -/
def Follows (t : Recency κ ν) (history : List κ) : Prop := t.keys = recent t.capacity history

theorem follows_empty (capacity : Nat) : (empty capacity : Recency κ ν).Follows [] :=
  (List.take_nil).symm

def useAll (t : Recency κ ν) (keys : List κ) : Recency κ ν :=
  keys.foldl (fun t key => (t.get? key).2) t

def insertAll (t : Recency κ ν) (entries : List (κ × ν)) : Recency κ ν :=
  entries.foldl (fun t e => t.insert e.1 e.2) t

theorem capacity_get? (t : Recency κ ν) (key : κ) : (t.get? key).2.capacity = t.capacity := by
  unfold get?
  split <;> rfl

theorem capacity_useAll (t : Recency κ ν) (keys : List κ) :
    (t.useAll keys).capacity = t.capacity := by
  induction keys generalizing t with
  | nil => rfl
  | cons key keys ih => exact (ih _).trans (capacity_get? t key)

theorem capacity_insertAll (t : Recency κ ν) (entries : List (κ × ν)) :
    (t.insertAll entries).capacity = t.capacity := by
  induction entries generalizing t with
  | nil => rfl
  | cons e entries ih => exact ih _

theorem mem_keys_of_peek? {t : Recency κ ν} {key : κ} {value : ν}
    (h : t.peek? key = some value) : key ∈ t.keys := List.mem_map_of_mem (mem_of_peek? h)

theorem mem_keys_get? (t : Recency κ ν) (used key : κ) :
    key ∈ (t.get? used).2.keys ↔ key ∈ t.keys := by
  rw [keys_get?]
  split
  · next hm =>
    by_cases hk : key = used
    · subst hk
      exact iff_of_true List.mem_cons_self hm
    · simp [hk]
  · exact Iff.rfl

/-- A use leaves the value of each key as it is. -/
theorem peek?_get? (t : Recency κ ν) (used key : κ) :
    (t.get? used).2.peek? key = t.peek? key := by
  unfold get?
  split
  · rfl
  · next value hvalue =>
    change (((used, value) :: t.without used).find? (·.1 = key)).map Prod.snd = _
    by_cases hk : used = key
    · rw [List.find?_cons_of_pos (by simpa using hk), ← hk, hvalue]
      rfl
    · rw [List.find?_cons_of_neg (by simpa using hk), without, List.find?_filter]
      refine congrArg (Option.map Prod.snd) (congrArg (List.find? · t.entries) (funext fun e => ?_))
      by_cases he : e.1 = key
      · simp [he, Ne.symm hk]
      · simp [he]

/-- Entries come from insertions alone. -/
theorem mem_entries_useAll {t : Recency κ ν} {keys : List κ} {e : κ × ν}
    (h : e ∈ (t.useAll keys).entries) : e ∈ t.entries := by
  induction keys generalizing t with
  | nil => exact h
  | cons key keys ih => exact mem_entries_get? (ih h)

theorem mem_entries_insertAll {t : Recency κ ν} {entries : List (κ × ν)} {e : κ × ν}
    (h : e ∈ (t.insertAll entries).entries) : e ∈ entries ∨ e ∈ t.entries := by
  induction entries generalizing t with
  | nil => exact .inr h
  | cons first entries ih =>
    rcases ih h with h | h
    · exact .inl (List.mem_cons_of_mem _ h)
    · rcases mem_entries_insert h with rfl | h
      · exact .inl List.mem_cons_self
      · exact .inr h

variable {t : Recency κ ν} {history : List κ}

theorem Follows.get? (h : t.Follows history) {key : κ} (hkey : key ∈ t.keys) :
    (t.get? key).2.Follows (history ++ [key]) := by
  unfold Follows at *
  rw [keys_get?, if_pos hkey, capacity_get?, recent_snoc, ← h]
  refine (List.take_of_length_le ?_).symm
  have hlength : t.keys.length ≤ t.capacity := h ▸ length_recent_le t.capacity history
  have hfewer : (t.keys.filter (· ≠ key)).length < t.keys.length :=
    List.length_filter_lt_length_iff_exists.mpr ⟨key, hkey, by simp⟩
  exact Nat.le_trans hfewer hlength

theorem Follows.insert (h : t.Follows history) (key : κ) (value : ν) :
    (t.insert key value).Follows (history ++ [key]) := by
  unfold Follows at *
  rw [keys_insert, h, ← recent_snoc]
  rfl

theorem Follows.useAll (h : t.Follows history) (keys : List κ) :
    (t.useAll keys).Follows (history ++ keys.filter (· ∈ t.keys)) := by
  induction keys generalizing t history with
  | nil => rwa [List.filter_nil, List.append_nil]
  | cons key keys ih =>
    have hkeys : keys.filter (· ∈ (t.get? key).2.keys) = keys.filter (· ∈ t.keys) :=
      List.filter_congr fun k _ => decide_eq_decide.mpr (mem_keys_get? t key k)
    change ((t.get? key).2.useAll keys).Follows _
    by_cases hkey : key ∈ t.keys
    · rw [List.filter_cons_of_pos (by simpa using hkey), List.append_cons, ← hkeys]
      exact ih (h.get? hkey)
    · have hmiss : t.get? key = (none, t) := by
        unfold Recency.get?
        rw [(t.peek?_eq_none_iff key).mpr hkey]
      rw [List.filter_cons_of_neg (by simpa using hkey), hmiss]
      exact ih h

theorem Follows.insertAll (h : t.Follows history) (entries : List (κ × ν)) :
    (t.insertAll entries).Follows (history ++ entries.map Prod.fst) := by
  induction entries generalizing t history with
  | nil => rwa [List.map_nil, List.append_nil]
  | cons e entries ih =>
    rw [List.map_cons, List.append_cons]
    exact ih (h.insert e.1 e.2)

end Recency

end Watchtower
