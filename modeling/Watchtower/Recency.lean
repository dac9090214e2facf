/-!
# A bounded table that forgets what was used longest ago

* `Recency κ ν` : the entries with the most recently used first, and how many are kept;
* `Recency.get?` : the value of a key, which becomes the most recent;
* `Recency.insert` : a value for a key, which becomes the most recent; entries past the capacity are
  forgotten;
* `Recency.keys` : the keys, most recent first, the view through which the operations are described
  (`keys_get?`, `keys_insert`). The entries themselves come from insertions alone
  (`mem_entries_get?`, `mem_entries_insert`), and while keys are different, which they stay
  (`nodup_get?`, `nodup_insert`), a use changes their order only (`perm_get?`).
-/

namespace Watchtower

structure Recency (κ ν : Type) where
  capacity : Nat
  entries : List (κ × ν)

namespace Recency

variable {κ ν : Type} [DecidableEq κ]

def empty (capacity : Nat) : Recency κ ν := ⟨capacity, []⟩

/-- The entries of all other keys. -/
def without (t : Recency κ ν) (key : κ) : List (κ × ν) := t.entries.filter (·.1 ≠ key)

def peek? (t : Recency κ ν) (key : κ) : Option ν :=
  (t.entries.find? (·.1 = key)).map Prod.snd

/-- The value of a key, and the table in which that key is the most recent. -/
def get? (t : Recency κ ν) (key : κ) : Option ν × Recency κ ν :=
  match t.peek? key with
  | none => (none, t)
  | some value => (some value, { t with entries := (key, value) :: t.without key })

def insert (t : Recency κ ν) (key : κ) (value : ν) : Recency κ ν :=
  { t with entries := ((key, value) :: t.without key).take t.capacity }

def keys (t : Recency κ ν) : List κ := t.entries.map Prod.fst

omit [DecidableEq κ] in
@[simp] theorem keys_empty (capacity : Nat) : (empty capacity : Recency κ ν).keys = [] := rfl

theorem keys_without (t : Recency κ ν) (key : κ) :
    (t.without key).map Prod.fst = t.keys.filter (· ≠ key) := by
  simp only [without, keys, List.filter_map]
  rfl

theorem peek?_eq_none_iff (t : Recency κ ν) (key : κ) : t.peek? key = none ↔ key ∉ t.keys := by
  simp only [peek?, Option.map_eq_none_iff, List.find?_eq_none, decide_eq_true_eq, keys,
    List.mem_map, not_exists, not_and]

/-- A use moves a key to the front if it is there. -/
theorem keys_get? (t : Recency κ ν) (key : κ) :
    (t.get? key).2.keys = if key ∈ t.keys then key :: t.keys.filter (· ≠ key) else t.keys := by
  have h := t.peek?_eq_none_iff key
  unfold get?
  split
  · next e => rw [if_neg (h.mp e)]
  · next v e =>
    have hm : key ∈ t.keys := by
      by_cases hk : key ∈ t.keys
      · exact hk
      · rw [h.mpr hk] at e; cases e
    rw [if_pos hm, ← keys_without]
    rfl

theorem mem_of_peek? {t : Recency κ ν} {key : κ} {value : ν} (h : t.peek? key = some value) :
    (key, value) ∈ t.entries := by
  obtain ⟨e, hf, rfl⟩ := Option.map_eq_some_iff.mp h
  obtain rfl : e.1 = key := by simpa using List.find?_some hf
  exact List.mem_of_find?_eq_some hf

theorem fst_get? (t : Recency κ ν) (key : κ) : (t.get? key).1 = t.peek? key := by
  unfold get?
  split
  · next h => exact h.symm
  · next h => exact h.symm

/-- A use of a key adds no entry. -/
theorem mem_entries_get? {t : Recency κ ν} {key : κ} {e : κ × ν}
    (h : e ∈ (t.get? key).2.entries) : e ∈ t.entries := by
  unfold get? at h
  split at h
  · exact h
  · next hv =>
    rcases List.mem_cons.mp h with rfl | h
    · exact mem_of_peek? hv
    · exact (List.mem_filter.mp h).1

theorem mem_entries_insert {t : Recency κ ν} {key : κ} {value : ν} {e : κ × ν}
    (h : e ∈ (t.insert key value).entries) : e = (key, value) ∨ e ∈ t.entries := by
  rcases List.mem_cons.mp (List.mem_of_mem_take h) with rfl | h
  · exact .inl rfl
  · exact .inr (List.mem_filter.mp h).1

theorem keys_insert (t : Recency κ ν) (key : κ) (value : ν) :
    (t.insert key value).keys = (key :: t.keys.filter (· ≠ key)).take t.capacity := by
  simp only [insert, keys, List.map_take, List.map_cons, without, List.filter_map]
  rfl

/-- Among entries with different keys one can stand in front of the others. -/
theorem perm_front {entries : List (κ × ν)} (hn : (entries.map Prod.fst).Nodup) {key : κ}
    {value : ν} (hm : (key, value) ∈ entries) :
    ((key, value) :: entries.filter (·.1 ≠ key)).Perm entries := by
  induction entries with
  | nil => cases hm
  | cons e entries ih =>
    obtain ⟨hfresh, hn⟩ := List.nodup_cons.mp hn
    rcases List.mem_cons.mp hm with rfl | hm
    · have hothers : ∀ e ∈ entries, decide (e.1 ≠ key) = true := by
        intro e he
        have hkey : e.1 ∈ entries.map Prod.fst := List.mem_map_of_mem he
        exact decide_eq_true fun heq => hfresh (heq ▸ hkey)
      rw [List.filter_cons_of_neg (by simp), List.filter_eq_self.mpr hothers]
    · have hkey : key ∈ entries.map Prod.fst := List.mem_map_of_mem hm
      have hne : decide (e.1 ≠ key) = true := decide_eq_true fun heq => hfresh (heq ▸ hkey)
      rw [List.filter_cons, if_pos hne]
      exact (List.Perm.swap e _ _).trans ((ih hn hm).cons e)

/-- So a use changes the order only. -/
theorem perm_get? {t : Recency κ ν} (hn : t.keys.Nodup) (key : κ) :
    (t.get? key).2.entries.Perm t.entries := by
  unfold get?
  split
  · exact .refl _
  · next hv => exact perm_front hn (mem_of_peek? hv)

theorem nodup_get? {t : Recency κ ν} (hn : t.keys.Nodup) (key : κ) :
    (t.get? key).2.keys.Nodup :=
  ((perm_get? hn key).map Prod.fst).nodup_iff.mpr hn

theorem nodup_insert {t : Recency κ ν} (hn : t.keys.Nodup) (key : κ) (value : ν) :
    (t.insert key value).keys.Nodup := by
  rw [keys_insert]
  refine List.Nodup.sublist (List.take_sublist _ _) (List.nodup_cons.mpr ⟨?_, hn.filter _⟩)
  simp

end Recency

end Watchtower
