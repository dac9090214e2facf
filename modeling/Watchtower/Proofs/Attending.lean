import Watchtower.Proofs.Bookkeeping
import Watchtower.Tracking

/-!
# The rounds of the loop over tracked games

The loop waits for the next event. A watcher that is handed over is to be tracked, and then it waits
again; so it does when it has taken the result of a task.

* `Round`, `Round.exchanges` : one event and what is done with it;
* `Attends n k tail rest` : where the loop is after `k` rounds; `attends_of_leaves` : it is nowhere
  else;
* `received`, `told` : the watchers that were taken in, and what the roster has said;
* `p.InTurn a rounds present` : the tasks at an address came one after another;
* `inTurn_of_runs`, `inTurn_of_received` : so it is in every history of the roster, and a watcher of
  a game in progress is turned away exactly if a task is present at its address.
-/

namespace Watchtower

open Program

/-! ## The loop -/

namespace Tracking

section
variable {γ : Type} {n : Nat} {trace : List (Exchange (Tracking γ))}
  {rest : Program (Tracking γ) Unit}

/-- What the loop has dealt with. -/
inductive Round (γ : Type)
  /-- A watcher was taken in, and a task was or was not started for it. -/
  | received (watcher : Watcher γ) (started : Bool)
  | parted (address : Address) (status : Game.Status)

def Round.exchanges : Round γ → List (Exchange (Tracking γ))
  | .received watcher started => [⟨.next, .handedOver watcher⟩, ⟨.track watcher, started⟩]
  | .parted address status => [⟨.next, .ended address status⟩]

/-- What is done with the event that comes next, if `n` more may come after it. -/
def onEvent (n : Nat) : Event γ → Program (Tracking γ) Unit
  | .stopped => .done ()
  | .handedOver watcher => .ask (.track watcher) fun _ => attend n
  | .ended .. => attend n

theorem attend_succ (n : Nat) : attend (γ := γ) (n + 1) = .ask .next (onEvent n) :=
  congrArg (Program.ask _) (funext fun event : Event γ => by cases event <;> rfl)

/-- The loop, which is to make `n` rounds, has made `k`, and `tail` came after that. Between two
rounds it waits for the next event, and it is stuck when it has made them all. -/
inductive Attends (n k : Nat) : List (Exchange (Tracking γ)) → Program (Tracking γ) Unit → Prop
  | waiting (h : k < n) : Attends n k [] (.ask .next (onEvent (n - (k + 1))))
  | spent (h : k = n) : Attends n k [] .stuck
  | receiving (watcher : Watcher γ) (next : Bool → Program (Tracking γ) Unit) :
      Attends n k [⟨.next, .handedOver watcher⟩] (.ask (.track watcher) next)
  | stopped : Attends n k [⟨.next, .stopped⟩] (.done ())

theorem Attends.succ {k : Nat} (h : Attends n k trace rest) :
    Attends (n + 1) (k + 1) trace rest := by
  cases h with
  | waiting h =>
    rw [← Nat.add_sub_add_right n 1 (k + 1)]
    exact .waiting (Nat.succ_lt_succ h)
  | spent h => exact .spent (congrArg Nat.succ h)
  | receiving watcher next => exact .receiving watcher next
  | stopped => exact .stopped

theorem attends_zero (n : Nat) : Attends n 0 [] (attend (γ := γ) n) := by
  cases n with
  | zero => exact .spent rfl
  | succ n =>
    rw [attend_succ]
    exact .waiting (Nat.succ_pos n)

theorem attends_of_leaves (h : (attend n).Leaves trace rest) :
    ∃ (rounds : List (Round γ)) (tail : List (Exchange (Tracking γ))),
      trace = rounds.flatMap Round.exchanges ++ tail ∧ Attends n rounds.length tail rest := by
  induction n generalizing trace with
  | zero =>
    obtain ⟨rfl, rfl⟩ := leaves_stuck_iff.mp h
    exact ⟨[], [], rfl, attends_zero 0⟩
  | succ n ih =>
    rw [attend_succ] at h
    rcases leaves_ask_iff.mp h with ⟨rfl, rfl⟩ | ⟨event, later, rfl, hlater⟩
    · exact ⟨[], [], rfl, .waiting (Nat.succ_pos n)⟩
    · cases event with
      | stopped =>
        obtain ⟨rfl, rfl⟩ := leaves_done_iff.mp hlater
        exact ⟨[], _, rfl, .stopped⟩
      | ended address status =>
        obtain ⟨rounds, tail, rfl, hattends⟩ := ih hlater
        exact ⟨.parted address status :: rounds, tail, rfl, hattends.succ⟩
      | handedOver watcher =>
        rcases leaves_ask_iff.mp hlater with ⟨rfl, rfl⟩ | ⟨started, later, rfl, htracked⟩
        · exact ⟨[], _, rfl, .receiving watcher _⟩
        · obtain ⟨rounds, tail, rfl, hattends⟩ := ih htracked
          exact ⟨.received watcher started :: rounds, tail, rfl, hattends.succ⟩

/-! ## What its rounds say -/

def Round.watcher? : Round γ → Option (Watcher γ)
  | .received watcher _ => some watcher
  | .parted .. => none

/-- The watchers that were taken from the queue. -/
def received (trace : List (Exchange (Tracking γ))) : List (Watcher γ) :=
  trace.filterMap fun
    | ⟨.next, .handedOver watcher⟩ => some watcher
    | _ => none

/-- What the roster has said. -/
def told (trace : List (Exchange (Tracking γ))) : List (Round γ) :=
  trace.filterMap fun
    | ⟨.track watcher, started⟩ => some (.received watcher started)
    | ⟨.next, .ended address status⟩ => some (.parted address status)
    | _ => none

theorem received_append (first second : List (Exchange (Tracking γ))) :
    received (first ++ second) = received first ++ received second :=
  List.filterMap_append

theorem told_append (first second : List (Exchange (Tracking γ))) :
    told (first ++ second) = told first ++ told second :=
  List.filterMap_append

theorem received_rounds (rounds : List (Round γ)) :
    received (rounds.flatMap Round.exchanges) = rounds.filterMap Round.watcher? := by
  induction rounds with
  | nil => rfl
  | cons r rounds ih =>
    rw [List.flatMap_cons, received_append, ih]
    cases r <;> rfl

theorem told_rounds (rounds : List (Round γ)) : told (rounds.flatMap Round.exchanges) = rounds := by
  induction rounds with
  | nil => rfl
  | cons r rounds ih =>
    rw [List.flatMap_cons, told_append, ih]
    cases r <;> rfl

theorem Attends.told_tail {k : Nat} (h : Attends n k trace rest) : told trace = [] := by
  cases h <;> rfl

/-- Whether a task was started at an address, or was seen to end. -/
def Round.concerns (a : Address) : Round γ → Bool
  | .received watcher started => started && watcher.address = a
  | .parted address _ => address = a

end

end Tracking

open Tracking

/-! ## The rounds and the history of the roster -/

section
variable {γ σ : Type} {p : Polling γ σ} {a : Address} {w : Watcher γ} {started : Bool}
  {r : Roster (Task γ)} {history : List (Event γ)} {before after : List (Round γ)}

def Event.round? : Event γ → Option (Round γ)
  | .tracked watcher started => some (.received watcher started)
  | .joined (.ended address status) => some (.parted address status)
  | _ => none

def Mark.round? (a : Address) : Mark γ → Option (Round γ)
  | .started watcher => some (.received watcher true)
  | .ended .. => none
  | .returned status => some (.parted a status)

/-- What the loop learns of a task. -/
def Episode.rounds (a : Address) (e : Episode γ) : List (Round γ) :=
  [.received e.watcher true, .parted a e.status]

theorem Event.filterMap_marks (a : Address) (event : Event γ) :
    (event.marks a).filterMap (Mark.round? a) = event.round?.toList.filter (Round.concerns a) := by
  rcases event with ⟨w, _ | _⟩ | ⟨b, stopped, task | status | _⟩ | ⟨b, status⟩ | _ | _
  · rfl
  · by_cases h : w.address = a <;> simp [marks, Mark.round?, round?, Round.concerns, h]
  · rfl
  · by_cases h : b = a <;> simp [marks, Mark.round?, round?, h]
  · rfl
  · by_cases h : b = a <;> simp [marks, Mark.round?, round?, Round.concerns, h]
  · rfl
  · rfl

theorem filterMap_marks (a : Address) (history : List (Event γ)) :
    (marks a history).filterMap (Mark.round? a) =
      (history.filterMap Event.round?).filter (Round.concerns a) := by
  rw [marks, List.filterMap_flatMap, List.filterMap_eq_flatMap_toList, List.filter_flatMap]
  exact List.flatMap_congr fun event _ => event.filterMap_marks a

namespace Polling

/-- At an address tasks were started one after another, each when the loop had seen the end of the
one before; it has not seen that of the present one, if there is one. -/
def InTurn (p : Polling γ σ) (a : Address) (rounds : List (Round γ))
    (present : Option (Watcher γ)) : Prop :=
  ∃ past : List (Episode γ), (∀ e ∈ past, p.ComesTo e.watcher e.stopped e.status) ∧
    rounds.filter (Round.concerns a) =
      past.flatMap (Episode.rounds a) ++ present.toList.map (.received · true)

theorem inTurn_of_runs (hperiod : p.period ≠ 0) (h : p.Runs history r) (a : Address) :
    ∃ present, p.InTurn a (history.filterMap Event.round?) present ∧
      (a ∈ r.tracked ↔ present.isSome) := by
  obtain ⟨past, current, hpast, hmarks, hfits⟩ := kept_of_runs hperiod h a
  have htold := congrArg (List.filterMap (Mark.round? a)) hmarks
  rw [filterMap_marks, List.filterMap_append, List.filterMap_flatMap] at htold
  have htracked := hfits.tracked_iff
  generalize r.view a = view at hfits
  cases hfits with
  | away => exact ⟨none, ⟨past, hpast, htold⟩, by simpa using htracked⟩
  | @playing w => exact ⟨some w, ⟨past, hpast, htold⟩, by simpa using htracked⟩
  | @ended w => exact ⟨some w, ⟨past, hpast, htold⟩, by simpa using htracked⟩

/-- What happened in a history happened to the roster of what came before. -/
theorem Runs.moves (h : p.Runs history r) {earlier later : List (Event γ)} {event : Event γ}
    (hhistory : history = earlier ++ event :: later) :
    ∃ r₁ r₂, p.Runs earlier r₁ ∧ p.Moves r₁ event r₂ := by
  induction h generalizing later with
  | start => simp at hhistory
  | snoc hruns hmoves ih =>
    rcases later.eq_nil_or_concat' with rfl | ⟨later, last, rfl⟩
    · obtain ⟨rfl, heq⟩ := List.append_inj' hhistory rfl
      obtain rfl := List.singleton_inj.mp heq
      exact ⟨_, _, hruns, hmoves⟩
    · rw [← List.cons_append, ← List.append_assoc] at hhistory
      exact ih (List.append_inj' hhistory rfl).1

/-- A task is started for a watcher of a game in progress exactly if none is present. -/
theorem inTurn_of_received (hperiod : p.period ≠ 0) (h : p.Runs history r)
    (hrounds : history.filterMap Event.round? = before ++ .received w started :: after) :
    ∃ present, p.InTurn w.address before present ∧
      (started = true ↔ w.status = .inProgress ∧ present = none) := by
  obtain ⟨first, second, rfl, rfl, hsecond⟩ := List.filterMap_eq_append_iff.mp hrounds
  obtain ⟨silent, event, later, rfl, hsilent, hevent, -⟩ := List.filterMap_eq_cons_iff.mp hsecond
  obtain ⟨r₁, r₂, hruns, hmoves⟩ := h.moves (List.append_assoc first silent (event :: later)).symm
  obtain ⟨present, hturn, htracked⟩ := inTurn_of_runs hperiod hruns w.address
  rw [List.filterMap_append, List.filterMap_eq_nil_iff.mpr hsilent, List.append_nil] at hturn
  refine ⟨present, hturn, ?_⟩
  cases hmoves with
  | @tracked watcher now given _ htrack =>
    obtain ⟨rfl, rfl⟩ := Round.received.inj (Option.some.inj hevent)
    have hgiven : (r₁.track _ _ _).1 = given := congrArg Prod.fst htrack
    rw [← hgiven, Roster.track_eq, htracked, Option.not_isSome_iff_eq_none]
  | went => exact nomatch hevent
  | @joined result _ _ => cases result <;> exact nomatch hevent

end Polling

end

end Watchtower
