import Mathlib.Data.List.Induction
import Watchtower.Schedule

/-!
# What happens to a roster

Watchers are to be tracked, tasks go on and end, and results are asked for, in any order. Which task
goes on, when, and what it is answered is left open. Asking for a result while none is there changes
nothing, so that a wait for one can be given up at any time.

* `Event`, `p.Moves r event r'` : what happens; `p.Runs history r` : from an empty roster on;
* `p.First s before entries best`, `first_soonest` : which task goes on first, if one is due in
  time;
* `Runs.track`, `Runs.step`, `Runs.pass`, `Runs.awaitNext` : what a schedule does is such a history.
-/

namespace Watchtower

variable {γ σ : Type} {p : Polling γ σ}

inductive Event (γ : Type)
  /-- A watcher is to be tracked, and it was or was not a task that was started for it. -/
  | tracked (watcher : Watcher γ) (started : Bool)
  /-- A task goes on, while the signal to stop has or has not been given. -/
  | went (address : Address) (stopped : Bool) (outcome : Outcome γ)
  | joined (result : Joined)

/-- The roster when a task has gone on. -/
def Roster.after (r : Roster (Task γ)) (address : Address) : Outcome γ → Roster (Task γ)
  | .running task => r.resume address task
  | .ended status => r.finish address status
  | .lost => r.lose address

namespace Polling

inductive Moves (p : Polling γ σ) (r : Roster (Task γ)) : Event γ → Roster (Task γ) → Prop
  | tracked (watcher : Watcher γ) (now : Nat) {started : Bool} {r' : Roster (Task γ)}
      (h : r.track watcher.address watcher.status ⟨watcher, some now, none⟩ = (started, r')) :
      Moves p r (.tracked watcher started) r'
  | went {address : Address} {task : Task γ} (hrunning : (address, task) ∈ r.running) (now : Nat)
      (s : σ) :
      Moves p r (.went address (p.stopped s) (p.go now task s).1)
        (r.after address (p.go now task s).1)
  | joined {result : Joined} {r' : Roster (Task γ)} (h : r.join = (result, r')) :
      Moves p r (.joined result) r'

inductive Runs (p : Polling γ σ) : List (Event γ) → Roster (Task γ) → Prop
  | start : Runs p [] {}
  | snoc {history : List (Event γ)} {event : Event γ} {r r' : Roster (Task γ)}
      (h : Runs p history r) (hmoves : p.Moves r event r') : Runs p (history ++ [event]) r'

/-! ## What a schedule does -/

variable {history : List (Event γ)} {s s' : Schedule γ σ}

theorem Runs.track (h : p.Runs history s.roster) (watcher : Watcher γ) :
    p.Runs (history ++ [.tracked watcher (s.track watcher).1]) (s.track watcher).2.roster :=
  h.snoc (.tracked watcher s.now rfl)

/-- Of some tasks, the one that goes on first, if one does so before a time. -/
def First (p : Polling γ σ) (s : Schedule γ σ) (before : Nat) (entries : List (Address × Task γ)) :
    Option (Address × Task γ × Nat) → Prop
  | none => ∀ e ∈ entries, ∀ due, p.dueTime s e.2 = some due → before ≤ due
  | some (a, task, due) => (a, task) ∈ entries ∧ p.dueTime s task = some due ∧ due < before ∧
      ∀ e ∈ entries, ∀ d, p.dueTime s e.2 = some d → due ≤ d

section
variable {before : Nat} {entries : List (Address × Task γ)}
  {best : Option (Address × Task γ × Nat)} {entry : Address × Task γ}

theorem First.taken {due : Nat} (hdue : p.dueTime s entry.2 = some due) (hsoon : due < before)
    (hfirst : ∀ e ∈ entries, ∀ d, p.dueTime s e.2 = some d → due ≤ d) :
    p.First s before (entries ++ [entry]) (some (entry.1, entry.2, due)) := by
  refine ⟨by simp, hdue, hsoon, List.forall_mem_append.mpr ⟨hfirst, ?_⟩⟩
  refine List.forall_mem_singleton.mpr fun d hd => ?_
  exact Nat.le_of_eq (Option.some.inj (hdue.symm.trans hd))

theorem First.passed (h : p.First s before entries best)
    (hlate : ∀ d, p.dueTime s entry.2 = some d → best.elim before (·.2.2) ≤ d) :
    p.First s before (entries ++ [entry]) best := by
  cases best with
  | none => exact List.forall_mem_append.mpr ⟨h, List.forall_mem_singleton.mpr hlate⟩
  | some best =>
    obtain ⟨hmem, hdue, hsoon, hfirst⟩ := h
    refine ⟨List.mem_append_left _ hmem, hdue, hsoon, ?_⟩
    exact List.forall_mem_append.mpr ⟨hfirst, List.forall_mem_singleton.mpr hlate⟩

theorem First.next (h : p.First s before entries best) (entry : Address × Task γ) :
    p.First s before (entries ++ [entry]) (match p.dueTime s entry.2 with
      | none => best
      | some due =>
        if due < before ∧ best.all fun (_, _, other) => due < other then
          some (entry.1, entry.2, due)
        else best) := by
  cases hdue : p.dueTime s entry.2 with
  | none => exact h.passed fun d hd => nomatch hdue.symm.trans hd
  | some due =>
    dsimp only
    split
    · next hbetter =>
      refine .taken hdue hbetter.1 fun e he d hd => ?_
      cases best with
      | none => exact Nat.le_trans (Nat.le_of_lt hbetter.1) (h e he d hd)
      | some best =>
        have hlt : due < best.2.2 := by simpa using hbetter.2
        exact Nat.le_trans (Nat.le_of_lt hlt) (h.2.2.2 e he d hd)
    · next hworse =>
      refine h.passed fun d hd => ?_
      obtain rfl := Option.some.inj (hdue.symm.trans hd)
      by_contra hlt
      cases best with
      | none => exact hworse ⟨Nat.lt_of_not_le hlt, rfl⟩
      | some best =>
        have hsoon : best.2.2 < before := h.2.2.1
        have hlt : due < best.2.2 := Nat.lt_of_not_le hlt
        exact hworse ⟨Nat.lt_trans hlt hsoon, by simpa using hlt⟩

end

theorem first_soonest (p : Polling γ σ) (s : Schedule γ σ) (before : Nat) :
    p.First s before s.roster.running (p.soonest s before) := by
  unfold soonest
  generalize s.roster.running = entries
  induction entries using List.reverseRecOn with
  | nil => exact fun _ he => absurd he List.not_mem_nil
  | append_singleton entries entry ih =>
    rw [List.foldl_append, List.foldl_cons, List.foldl_nil]
    generalize entries.foldl _ none = best at ih ⊢
    exact ih.next entry

/-- The task that is chosen is one of those that run. -/
theorem mem_of_soonest {before due : Nat} {address : Address} {task : Task γ}
    (h : p.soonest s before = some (address, task, due)) :
    (address, task) ∈ s.roster.running := by
  have hfirst := first_soonest p s before
  rw [h] at hfirst
  exact hfirst.1

theorem Runs.step {before : Nat} (h : p.Runs history s.roster) (hstep : p.step s before = some s') :
    ∃ event, p.Runs (history ++ [event]) s'.roster := by
  obtain ⟨⟨address, task, due⟩, hsoonest, rfl⟩ := Option.map_eq_some_iff.mp hstep
  have hmoves : p.Moves s.roster _ _ := .went (mem_of_soonest hsoonest) (max s.now due) s.world
  refine ⟨.went address (p.stopped s.world) (p.go (max s.now due) task s.world).1, h.snoc ?_⟩
  dsimp only
  generalize p.go (max s.now due) task s.world = result at hmoves ⊢
  obtain ⟨outcome, world⟩ := result
  cases outcome <;> exact hmoves

theorem Runs.runBefore (h : p.Runs history s.roster) (before steps : Nat) :
    ∃ more, p.Runs (history ++ more) (p.runBefore s before steps).roster := by
  induction steps generalizing history s with
  | zero => exact ⟨[], by simpa [Polling.runBefore] using h⟩
  | succ steps ih =>
    unfold Polling.runBefore
    split
    · exact ⟨[], by simpa using h⟩
    · next s' hstep =>
      obtain ⟨event, h⟩ := h.step hstep
      obtain ⟨more, h⟩ := ih h
      exact ⟨event :: more, by simpa using h⟩

theorem Runs.pass (h : p.Runs history s.roster) (duration steps : Nat) :
    ∃ more, p.Runs (history ++ more) (p.pass s duration steps).roster :=
  h.runBefore (s.now + duration) steps

theorem Runs.runToEnd (h : p.Runs history s.roster) (before steps : Nat) :
    ∃ more, p.Runs (history ++ more) (p.runToEnd s before steps).roster := by
  induction steps generalizing history s with
  | zero => exact ⟨[], by simpa [Polling.runToEnd] using h⟩
  | succ steps ih =>
    unfold Polling.runToEnd
    split
    · exact ⟨[], by simpa using h⟩
    · split
      · exact ⟨[], by simpa using h⟩
      · next s' hstep =>
        obtain ⟨event, h⟩ := h.step hstep
        obtain ⟨more, h⟩ := ih h
        exact ⟨event :: more, by simpa using h⟩

/-- A wait for a task to end: tasks go on, and in the end its result is asked for. -/
theorem Runs.awaitNext (h : p.Runs history s.roster) (limit steps : Nat) :
    ∃ more, p.Runs (history ++ more ++ [.joined (p.awaitNext s limit steps).1])
      (p.awaitNext s limit steps).2.roster := by
  unfold Polling.awaitNext
  split
  · dsimp only
    obtain ⟨first, hfirst⟩ := h.runToEnd (s.now + limit) steps
    generalize p.runToEnd s (s.now + limit) steps = s' at hfirst ⊢
    split
    · exact ⟨first, hfirst.snoc (.joined rfl)⟩
    · obtain ⟨second, hsecond⟩ := hfirst.runBefore (s'.now + 1) steps
      refine ⟨first ++ second, ?_⟩
      rw [← List.append_assoc]
      exact hsecond.snoc (.joined rfl)
  · next joined roster _ hjoin =>
    refine ⟨[], ?_⟩
    rw [List.append_nil]
    exact h.snoc (.joined hjoin)

end Polling

end Watchtower
