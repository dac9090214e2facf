import Watchtower.Discovery
import Watchtower.Proofs.Rely

/-!
# The search for games, question by question

* `looking gameType earliest n index`, `following n` : what is left of the search while it reads the
  list, and when it waits for events (`looking_zero`, `looking_succ`, `following_succ`);
* `run_discover` : how it gets there;
* `ends_scan` : the scan comes to its end, whatever it is answered;
* `recent` : the games that the scan is to find (`recent_succ`). In a list by time of creation there
  is none before one that is too old (`recent_eq_nil`);
* `fresh` : the games that the events are to tell of.
-/

namespace Watchtower.Discovery

open Program

variable {gameType : UInt32} {earliest : UInt64} {listed : List Listing} {l : Listing}
  {n index count : Nat}

/-! ## The program -/

def following (n : Nat) : Program Discovery (Except Fault Unit) :=
  follow n >>= fun _ => .done (.ok ())

/-- The scan is at an index, and `n` events are to follow. -/
def looking (gameType : UInt32) (earliest : UInt64) (n index : Nat) :
    Program Discovery (Except Fault Unit) :=
  (scanFrom gameType earliest index).run >>= fun
    | .ok _ => following n
    | .error fault => .done (.error fault)

/-- A game that was found is welcomed. -/
def welcoming (origin : Origin) : Option Address → Program Discovery (Except Fault Unit) →
    Program Discovery (Except Fault Unit)
  | none, rest => rest
  | some game, rest => .ask (.welcome origin game) fun _ => rest

/-- An event is dealt with. One that names no game is reported. -/
def dealing : Option Address → Program Discovery (Except Fault Unit) →
    Program Discovery (Except Fault Unit)
  | some game, rest => .ask (.welcome .announced game) fun _ => rest
  | none, rest => .ask (.notify (Origin.announced.failure Cause.eventWithoutGame)) fun _ => rest

theorem following_succ (n : Nat) : following (n + 1) = .ask .nextEvent fun
    | none => .done (.ok ())
    | some event => dealing (announced? event) (following n) := by
  refine congrArg (Program.ask _) (funext fun reply : Option L1.Event => ?_)
  cases reply with
  | none => rfl
  | some event =>
    simp only [Program.bind]
    cases announced? event <;> rfl

theorem looking_zero (gameType : UInt32) (earliest : UInt64) (n : Nat) :
    looking gameType earliest n 0 = following n := rfl

theorem looking_succ (gameType : UInt32) (earliest : UInt64) (n index : Nat) :
    looking gameType earliest n (index + 1) = .ask (.gameAt index) fun
      | .error fault => .done (.error fault)
      | .ok l =>
        if l.createdAt < earliest then following n
        else welcoming .listed (if l.gameType = gameType then some l.game else none)
          (looking gameType earliest n index) := by
  refine congrArg (Program.ask _) (funext fun reply : Except Fault Listing => ?_)
  cases reply with
  | error fault => rfl
  | ok l =>
    simp only [Program.bind, ExceptT.bindCont]
    by_cases hold : l.createdAt < earliest
    · simp only [hold, if_true]
      rfl
    · by_cases htype : l.gameType = gameType
      · simp only [hold, htype, if_true, if_false]
        rfl
      · simp only [hold, htype, if_false]
        rfl

theorem run_discover (gameType : UInt32) (window : UInt64) (n : Nat) :
    (discover gameType window n).run = .ask (.subscribe gameType) fun
      | .error fault => .done (.error fault)
      | .ok _ => .ask .now fun now => .ask .gameCount fun
        | .error fault => .done (.error fault)
        | .ok count => looking gameType (satSub now window) n count := by
  refine congrArg (Program.ask _) (funext fun reply : Except Fault Unit => ?_)
  cases reply with
  | error fault => rfl
  | ok _ =>
    refine congrArg (Program.ask _) (funext fun now : UInt64 => ?_)
    refine congrArg (Program.ask _) (funext fun reply : Except Fault Nat => ?_)
    cases reply with
    | error fault => rfl
    | ok count =>
      simp only [Program.bind, ExceptT.bindCont]
      refine congrArg ((scanFrom gameType (satSub now window) count).run >>= ·) (funext fun x => ?_)
      cases x <;> rfl

theorem ends_scanFrom (rely : Discovery.Rely) (index : Nat) :
    (scanFrom gameType earliest index).run.Meets rely (· ≠ none) := by
  induction index with
  | zero => exact Option.some_ne_none _
  | succ index ih =>
    rintro (fault | l) -
    · exact Option.some_ne_none _
    · simp only [Program.bind, ExceptT.bindCont]
      split
      · exact Option.some_ne_none _
      · split
        · exact fun _ _ => ih
        · exact ih

/-- However the questions are answered, the scan comes to its end. -/
theorem ends_scan (gameType : UInt32) (window : UInt64) (rely : Discovery.Rely) :
    (scan gameType window).run.Meets rely (· ≠ none) := by
  rintro now - (fault | count) -
  · exact Option.some_ne_none _
  · exact ends_scanFrom rely count

/-! ## What it is to find -/

/-- In order of creation. -/
def Chronological (listed : List Listing) : Prop :=
  listed.Pairwise fun l m => l.createdAt ≤ m.createdAt

/-- The games among the first `count` that are to be welcomed, the newest first. -/
def recent (gameType : UInt32) (earliest : UInt64) (listed : List Listing) (count : Nat) :
    List Listing :=
  ((listed.take count).filter fun l => l.gameType = gameType ∧ earliest ≤ l.createdAt).reverse

theorem recent_zero (gameType : UInt32) (earliest : UInt64) (listed : List Listing) :
    recent gameType earliest listed 0 = [] := rfl

theorem recent_succ (h : listed[index]? = some l) :
    recent gameType earliest listed (index + 1) =
      (if l.gameType = gameType ∧ earliest ≤ l.createdAt then [l] else []) ++
        recent gameType earliest listed index := by
  unfold recent
  rw [List.take_add_one, h, List.filter_append, List.reverse_append]
  congr 1
  split
  · next hfound => simp [hfound]
  · next hfound => simp [hfound]

/-- What is older than a game that is too old is too old itself. -/
theorem recent_eq_nil (hlisted : Chronological listed) (h : listed[index]? = some l)
    (hold : l.createdAt < earliest) : recent gameType earliest listed (index + 1) = [] := by
  have holder : ∀ m ∈ listed.take (index + 1), m.createdAt ≤ l.createdAt := by
    have hfirst : Chronological (listed.take (index + 1)) := hlisted.sublist (List.take_sublist ..)
    rw [List.take_add_one, h] at hfirst ⊢
    intro m hm
    rcases List.mem_append.mp hm with hm | hm
    · exact (List.pairwise_append.mp hfirst).2.2 m hm l (List.mem_singleton_self l)
    · obtain rfl := List.mem_singleton.mp hm
      exact UInt64.le_refl _
  unfold recent
  rw [List.reverse_eq_nil_iff, List.filter_eq_nil_iff]
  intro m hm hfound
  have hyoung := (of_decide_eq_true hfound).2
  exact UInt64.not_lt.mpr (UInt64.le_trans hyoung (holder m hm)) hold

/-- Games that are created later are not among the first. -/
theorem recent_append (hcount : count ≤ listed.length) (later : List Listing) :
    recent gameType earliest (listed ++ later) count = recent gameType earliest listed count := by
  unfold recent
  rw [List.take_append_of_le_length hcount]

theorem mem_recent (h : listed[index]? = some l) (hindex : index < count)
    (htype : l.gameType = gameType) (hyoung : earliest ≤ l.createdAt) :
    l ∈ recent gameType earliest listed count := by
  rw [recent, List.mem_reverse, List.mem_filter]
  refine ⟨List.mem_of_getElem? (i := index) ?_, decide_eq_true ⟨htype, hyoung⟩⟩
  rw [List.getElem?_take_of_lt hindex, h]

theorem recent_sublist (gameType : UInt32) (earliest : UInt64) (listed : List Listing)
    (count : Nat) :
    (recent gameType earliest listed count).reverse.Sublist
      (listed.filter (·.gameType = gameType)) := by
  have hfilter :
      (listed.take count).filter (fun l => l.gameType = gameType ∧ earliest ≤ l.createdAt) =
        ((listed.take count).filter (·.gameType = gameType)).filter (earliest ≤ ·.createdAt) := by
    rw [List.filter_filter]
    exact List.filter_congr fun l _ => by simp [Bool.and_comm]
  rw [recent, List.reverse_reverse, hfilter]
  exact List.filter_sublist.trans ((List.take_sublist ..).filter _)

/-- The games of a type that were created after the first so many. -/
def fresh (gameType : UInt32) (listed : List Listing) (first : Nat) : List Listing :=
  (listed.drop first).filter (·.gameType = gameType)

theorem mem_fresh {first : Nat} (h : listed[index]? = some l) (hindex : first ≤ index)
    (htype : l.gameType = gameType) : l ∈ fresh gameType listed first := by
  refine List.mem_filter.mpr
    ⟨List.mem_of_getElem? (i := index - first) ?_, decide_eq_true htype⟩
  rw [List.getElem?_drop, Nat.add_sub_cancel' hindex, h]

theorem fresh_sublist (gameType : UInt32) (listed : List Listing) (first : Nat) :
    (fresh gameType listed first).Sublist (listed.filter (·.gameType = gameType)) :=
  (List.drop_sublist ..).filter _

end Watchtower.Discovery
