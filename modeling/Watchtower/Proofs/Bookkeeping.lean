import Mathlib.Data.List.Nodup
import Watchtower.Proofs.Happenings
import Watchtower.Proofs.Playing
import Watchtower.Proofs.Settlement

/-!
# The books that a roster keeps

An address is tracked from the moment when a task is started for it until the result of that task is
handed over, whatever happens in between.

* `marks a history` : what a history says about the tasks at an address: that one was started, has
  ended, or that its result was handed over;
* `r.view a` : what a roster knows about an address;
* `p.Fits current (r.view a)` : what the roster knows fits the marks of the present task;
* `p.Kept all (r.view a)`, `kept_of_runs` : the marks at every address are those of whole tasks, one
  after another, and then those of the present task, if there is one;
* `bookkeeping` : an address is tracked exactly as long as the result of its task has not been
  handed over.
-/

namespace Watchtower

variable {γ σ τ : Type} {p : Polling γ σ} {a b : Address} {w : Watcher γ}

/-! ## What a roster knows about an address -/

structure View (τ : Type) where
  /-- How often the address is tracked. -/
  tracked : Nat
  running : List τ
  finished : List Game.Status

/-- What is known of an address when its task has gone on. -/
def View.after (view : View (Task γ)) : Outcome γ → View (Task γ)
  | .running task => { view with running := [task] }
  | .ended status => { view with running := [], finished := view.finished ++ [status] }
  | .lost => { view with running := [] }

namespace Roster

variable {r : Roster τ} {status : Game.Status} {task : τ}

def view (r : Roster τ) (a : Address) : View τ where
  tracked := r.tracked.count a
  running := (r.running.filter (·.1 = a)).map (·.2)
  finished := (r.finished.filter (·.1 = a)).map (·.2)

theorem mem_running_view : task ∈ (r.view a).running ↔ (a, task) ∈ r.running := by
  simp [view]

theorem filter_eq_filter_ne {ρ : Type} (h : a ≠ b) (entries : List (Address × ρ)) :
    (entries.filter (·.1 ≠ b)).filter (·.1 = a) = entries.filter (·.1 = a) := by
  rw [List.filter_filter]
  refine List.filter_congr fun entry _ => ?_
  by_cases ha : entry.1 = a
  · simp [ha, h]
  · simp [ha]

theorem filter_eq_filter_ne_self {ρ : Type} (entries : List (Address × ρ)) :
    (entries.filter (·.1 ≠ a)).filter (·.1 = a) = [] := by
  rw [List.filter_filter]
  exact List.filter_eq_nil_iff.mpr fun entry _ => by simp

theorem filter_eq_append_self {ρ : Type} (entries : List (Address × ρ)) (x : ρ) :
    (entries ++ [(a, x)]).filter (·.1 = a) = entries.filter (·.1 = a) ++ [(a, x)] := by
  simp [List.filter_append]

theorem filter_eq_append_of_ne {ρ : Type} (h : a ≠ b) (entries : List (Address × ρ)) (x : ρ) :
    (entries ++ [(b, x)]).filter (·.1 = a) = entries.filter (·.1 = a) := by
  simp [List.filter_append, h.symm]

theorem track_eq (r : Roster τ) (b : Address) (status : Game.Status) (task : τ) :
    (r.track b status task).1 = true ↔ status = .inProgress ∧ b ∉ r.tracked := by
  unfold track
  split
  · next h => exact ⟨fun _ => h, fun _ => rfl⟩
  · next h => exact ⟨nofun, fun h' => absurd h' h⟩

theorem track_refused (h : (r.track b status task).1 = false) : (r.track b status task).2 = r := by
  unfold track at h ⊢
  split at h
  · exact nomatch h
  · next hcond => rw [if_neg hcond]

theorem mem_track_iff : a ∈ (r.track b status task).2.tracked ↔
    a ∈ r.tracked ∨ (b = a ∧ status = .inProgress) := by
  unfold track
  split
  · next h => simp [h.1, or_comm, eq_comm]
  · next h =>
    refine ⟨.inl, fun hmem => hmem.elim id ?_⟩
    rintro ⟨rfl, hgoes⟩
    by_contra hfree
    exact h ⟨hgoes, hfree⟩

theorem view_track_self (h : (r.track b status task).1 = true) :
    (r.track b status task).2.view b =
      ⟨(r.view b).tracked + 1, (r.view b).running ++ [task], (r.view b).finished⟩ := by
  unfold track view
  rw [if_pos ((track_eq ..).mp h)]
  simp only [List.count_cons_self, filter_eq_append_self, List.map_append, List.map_cons,
    List.map_nil]

theorem view_track_of_ne (hne : a ≠ b) : (r.track b status task).2.view a = r.view a := by
  unfold track
  split
  · simp only [view, List.count_cons_of_ne hne.symm, filter_eq_append_of_ne hne]
  · rfl

theorem view_resume_self : (r.resume b task).view b = { r.view b with running := [task] } := by
  simp only [resume, view, filter_eq_append_self, filter_eq_filter_ne_self, List.nil_append,
    List.map_cons, List.map_nil]

theorem view_resume_of_ne (hne : a ≠ b) : (r.resume b task).view a = r.view a := by
  simp only [resume, view, filter_eq_append_of_ne hne, filter_eq_filter_ne hne]

theorem view_finish_self : (r.finish b status).view b =
    { r.view b with running := [], finished := (r.view b).finished ++ [status] } := by
  simp only [finish, view, filter_eq_append_self, filter_eq_filter_ne_self, List.map_append,
    List.map_cons, List.map_nil]

theorem view_finish_of_ne (hne : a ≠ b) : (r.finish b status).view a = r.view a := by
  simp only [finish, view, filter_eq_append_of_ne hne, filter_eq_filter_ne hne]

theorem view_lose_of_ne (hne : a ≠ b) : (r.lose b).view a = r.view a := by
  simp only [lose, view, filter_eq_filter_ne hne]

theorem view_join_self {later : List (Address × Game.Status)}
    (h : r.finished = (b, status) :: later) :
    (r.view b).finished = status :: (later.filter (·.1 = b)).map (·.2) ∧
      ({ r with tracked := r.tracked.erase b, finished := later } : Roster τ).view b =
        ⟨(r.view b).tracked - 1, (r.view b).running, (later.filter (·.1 = b)).map (·.2)⟩ := by
  constructor
  · simp [view, h]
  · simp [view, List.count_erase_self]

theorem view_join_of_ne {later : List (Address × Game.Status)}
    (h : r.finished = (b, status) :: later) (hne : a ≠ b) :
    ({ r with tracked := r.tracked.erase b, finished := later } : Roster τ).view a = r.view a := by
  simp [view, h, List.count_erase_of_ne hne, hne.symm]

theorem view_after_self {r : Roster (Task γ)} {outcome : Outcome γ} :
    (r.after b outcome).view b = (r.view b).after outcome := by
  cases outcome with
  | running task => exact view_resume_self
  | ended status => exact view_finish_self
  | lost => simp only [after, lose, view, View.after, filter_eq_filter_ne_self, List.map_nil]

theorem view_after_of_ne {r : Roster (Task γ)} {outcome : Outcome γ} (hne : a ≠ b) :
    (r.after b outcome).view a = r.view a := by
  cases outcome with
  | running task => exact view_resume_of_ne hne
  | ended status => exact view_finish_of_ne hne
  | lost => exact view_lose_of_ne hne

/-- What a result that was asked for does to the roster. -/
theorem join_cases (r : Roster τ) :
    (∃ b status later, r.finished = (b, status) :: later ∧ r.join =
      (.ended b status, { r with tracked := r.tracked.erase b, finished := later })) ∨
    (r.finished = [] ∧ r.running = [] ∧ r.join = (.nothing, r)) ∨
    (r.finished = [] ∧ r.running ≠ [] ∧ r.join = (.pending, r)) := by
  unfold join
  cases hfinished : r.finished with
  | cons first later => exact .inl ⟨first.1, first.2, later, rfl, rfl⟩
  | nil =>
    cases hrunning : r.running with
    | nil => exact .inr (.inl ⟨rfl, rfl, rfl⟩)
    | cons first later => exact .inr (.inr ⟨rfl, List.cons_ne_nil first later, rfl⟩)

end Roster

/-! ## What a history says about an address -/

inductive Mark (γ : Type)
  | started (watcher : Watcher γ)
  | ended (stopped : Bool) (status : Game.Status)
  | returned (status : Game.Status)

def Event.marks (a : Address) : Event γ → List (Mark γ)
  | .tracked watcher true => if watcher.address = a then [.started watcher] else []
  | .went address stopped (.ended status) => if address = a then [.ended stopped status] else []
  | .joined (.ended address status) => if address = a then [.returned status] else []
  | _ => []

def marks (a : Address) (history : List (Event γ)) : List (Mark γ) :=
  history.flatMap (Event.marks a)

/-- A task whose result has been handed over. -/
structure Episode (γ : Type) where
  watcher : Watcher γ
  stopped : Bool
  status : Game.Status

def Episode.marks (e : Episode γ) : List (Mark γ) :=
  [.started e.watcher, .ended e.stopped e.status, .returned e.status]

theorem Event.marks_went_of_ne {stopped : Bool} {outcome : Outcome γ} (hne : a ≠ b) :
    (Event.went b stopped outcome).marks a = [] := by
  cases outcome with
  | running task => rfl
  | ended status => exact if_neg hne.symm
  | lost => rfl

theorem marks_snoc (a : Address) (history : List (Event γ)) (event : Event γ) :
    marks a (history ++ [event]) = marks a history ++ event.marks a := by
  rw [marks, List.flatMap_append, List.flatMap_singleton]
  rfl

namespace Polling

/-- The marks of the present task, if there is one, and what the roster knows then. -/
inductive Fits (p : Polling γ σ) : List (Mark γ) → View (Task γ) → Prop
  | away : Fits p [] ⟨0, [], []⟩
  | playing {w : Watcher γ} {task : Task γ} (h : p.Playing w task) :
      Fits p [.started w] ⟨1, [task], []⟩
  | ended {w : Watcher γ} {stopped : Bool} {status : Game.Status}
      (h : p.ComesTo w stopped status) :
      Fits p [.started w, .ended stopped status] ⟨1, [], [status]⟩

/-- The marks are those of whole tasks, and those of the present one. -/
def Kept (p : Polling γ σ) (all : List (Mark γ)) (view : View (Task γ)) : Prop :=
  ∃ (past : List (Episode γ)) (current : List (Mark γ)),
    (∀ e ∈ past, p.ComesTo e.watcher e.stopped e.status) ∧
    all = past.flatMap Episode.marks ++ current ∧ p.Fits current view

variable {r r' : Roster (Task γ)} {event : Event γ} {all current : List (Mark γ)}
  {view view' : View (Task γ)}

theorem Kept.append {more : List (Mark γ)} (h : p.Kept all view)
    (hfits : ∀ current, p.Fits current view → p.Fits (current ++ more) view') :
    p.Kept (all ++ more) view' := by
  obtain ⟨past, current, hpast, rfl, hcurrent⟩ := h
  exact ⟨past, current ++ more, hpast, List.append_assoc .., hfits current hcurrent⟩

theorem Kept.started {task : Task γ} (h : p.Kept all view) (htracked : view.tracked = 0)
    (hplaying : p.Playing w task) :
    p.Kept (all ++ [.started w]) ⟨view.tracked + 1, view.running ++ [task], view.finished⟩ := by
  refine h.append fun current hcurrent => ?_
  cases hcurrent with
  | away => exact .playing hplaying
  | playing => exact nomatch htracked
  | ended => exact nomatch htracked

/-- A task that goes on is that of a game that is being played. -/
theorem Kept.went {task : Task γ} (hperiod : p.period ≠ 0) (h : p.Kept all (r.view b))
    (hrunning : (b, task) ∈ r.running) (now : Nat) (s : σ) :
    p.Kept (all ++ (Event.went b (p.stopped s) (p.go now task s).1).marks b)
      ((r.after b (p.go now task s).1).view b) := by
  have htask : task ∈ (r.view b).running := Roster.mem_running_view.mpr hrunning
  rw [Roster.view_after_self]
  refine h.append fun current hcurrent => ?_
  generalize r.view b = view at htask hcurrent ⊢
  cases hcurrent with
  | away => exact absurd htask List.not_mem_nil
  | ended => exact absurd htask List.not_mem_nil
  | playing hplaying =>
    obtain rfl := List.mem_singleton.mp htask
    have hbecomes := becomes_go hperiod hplaying now s
    generalize (p.go now task s).1 = outcome at hbecomes ⊢
    cases outcome with
    | running task' => exact .playing hbecomes
    | ended status =>
      rw [Event.marks, if_pos rfl]
      exact .ended hbecomes
    | lost => exact hbecomes.elim

theorem Kept.returned {status : Game.Status} {later : List Game.Status} (h : p.Kept all view)
    (hfinished : view.finished = status :: later) :
    p.Kept (all ++ [.returned status]) ⟨view.tracked - 1, view.running, later⟩ := by
  obtain ⟨past, current, hpast, rfl, hcurrent⟩ := h
  cases hcurrent with
  | away => exact nomatch hfinished
  | playing => exact nomatch hfinished
  | @ended w stopped status' hfinishes =>
    obtain ⟨rfl, rfl⟩ := List.cons.inj hfinished
    refine ⟨past ++ [⟨w, stopped, status'⟩], [], ?_, ?_, .away⟩
    · intro e he
      rcases List.mem_append.mp he with he | he
      · exact hpast e he
      · obtain rfl := List.mem_singleton.mp he
        exact hfinishes
    · simp only [List.flatMap_append, List.flatMap_singleton, Episode.marks, List.append_assoc,
        List.cons_append, List.nil_append, List.append_nil]

theorem Kept.unchanged (h : p.Kept all view) : p.Kept (all ++ []) view := by
  rw [List.append_nil]
  exact h

theorem kept_of_moves (hperiod : p.period ≠ 0) {history : List (Event γ)}
    (h : ∀ a, p.Kept (marks a history) (r.view a)) (hmoves : p.Moves r event r') (a : Address) :
    p.Kept (marks a (history ++ [event])) (r'.view a) := by
  rw [marks_snoc]
  cases hmoves with
  | @tracked watcher now started r' htrack =>
    cases started with
    | false =>
      obtain rfl : r = r' := (Roster.track_refused (congrArg Prod.fst htrack)).symm.trans
        (congrArg Prod.snd htrack)
      exact (h a).unchanged
    | true =>
      have hstarted := congrArg Prod.fst htrack
      obtain rfl := congrArg Prod.snd htrack
      obtain ⟨hgoes, hfree⟩ := (Roster.track_eq ..).mp hstarted
      by_cases ha : a = watcher.address
      · subst ha
        rw [Event.marks, if_pos rfl, Roster.view_track_self hstarted]
        exact (h _).started (List.count_eq_zero.mpr hfree) (playing_start p now hgoes)
      · rw [Event.marks, if_neg (Ne.symm ha), Roster.view_track_of_ne ha]
        exact (h a).unchanged
  | @went address task hrunning now s =>
    by_cases ha : a = address
    · subst ha
      exact (h a).went hperiod hrunning now s
    · rw [Event.marks_went_of_ne ha, Roster.view_after_of_ne ha]
      exact (h a).unchanged
  | joined hjoin =>
    rcases r.join_cases with ⟨b, status, later, hfinished, heq⟩ | ⟨-, -, heq⟩ | ⟨-, -, heq⟩ <;>
      obtain ⟨rfl, rfl⟩ := Prod.mk.inj (heq.symm.trans hjoin)
    · by_cases ha : a = b
      · subst ha
        obtain ⟨hhead, hview⟩ := Roster.view_join_self hfinished
        rw [Event.marks, if_pos rfl, hview]
        exact (h a).returned hhead
      · rw [Event.marks, if_neg (Ne.symm ha), Roster.view_join_of_ne hfinished ha]
        exact (h a).unchanged
    · exact (h a).unchanged
    · exact (h a).unchanged

theorem kept_of_runs (hperiod : p.period ≠ 0) {history : List (Event γ)} (h : p.Runs history r)
    (a : Address) : p.Kept (marks a history) (r.view a) := by
  induction h generalizing a with
  | start => exact ⟨[], [], fun _ he => absurd he List.not_mem_nil, rfl, .away⟩
  | snoc _ hmoves ih => exact kept_of_moves hperiod ih hmoves a

/-! ## The books -/

/-- An address is tracked for the task that runs or the result that is there, and for one only. -/
theorem Fits.tracks (h : p.Fits current view) : (0 < view.tracked ↔ current ≠ []) ∧
    view.tracked ≤ 1 ∧ view.running.length + view.finished.length = view.tracked := by
  cases h <;> simp

theorem Fits.tracked_iff (h : p.Fits current (r.view a)) : a ∈ r.tracked ↔ current ≠ [] :=
  List.count_pos_iff.symm.trans h.tracks.1

theorem count_map_fst {ρ : Type} (a : Address) (entries : List (Address × ρ)) :
    (entries.map (·.1)).count a = ((entries.filter (·.1 = a)).map (·.2)).length := by
  rw [List.count, List.countP_map, List.length_map, List.countP_eq_length_filter]
  congr 1

theorem Fits.count_eq (h : p.Fits current (r.view a)) :
    (r.running.map (·.1) ++ r.finished.map (·.1)).count a = r.tracked.count a := by
  rw [List.count_append, count_map_fst, count_map_fst]
  exact h.tracks.2.2

theorem tracked_eq_nil (hjoin : r.join.1 = .nothing)
    (hkept : ∀ a, ∃ current, p.Fits current (r.view a)) : r.tracked = [] := by
  rcases r.join_cases with ⟨_, _, _, -, heq⟩ | ⟨hfinished, hrunning, -⟩ | ⟨-, -, heq⟩
  · rw [heq] at hjoin
    exact nomatch hjoin
  · refine List.eq_nil_iff_forall_not_mem.mpr fun a ha => ?_
    obtain ⟨current, hfits⟩ := hkept a
    have hnone := hfits.count_eq
    rw [hfinished, hrunning] at hnone
    exact absurd hnone (Nat.ne_of_lt (List.count_pos_iff.mpr ha))
  · rw [heq] at hjoin
    exact nomatch hjoin

end Polling

open Polling in
/-- After any history: an address is tracked once, and exactly those are of which a task runs or has
a result that was not handed over. At every address, tasks were started one after another, each when
the one before had ended and its result, the last status of its watcher, had been handed over; the
address is tracked exactly if there is one whose result has not been. A task is started exactly for
a game in progress whose address is not tracked. When nothing is left to be joined, nothing is
tracked, and every result has been handed over. -/
theorem bookkeeping (hperiod : p.period ≠ 0) {history : List (Event γ)} {r : Roster (Task γ)}
    (h : p.Runs history r) :
    r.tracked.Nodup ∧ (r.running.map (·.1) ++ r.finished.map (·.1)).Perm r.tracked ∧
    (∀ a, ∃ (past : List (Episode γ)) (current : List (Mark γ)),
      (∀ e ∈ past, p.ComesTo e.watcher e.stopped e.status) ∧
      marks a history = past.flatMap Episode.marks ++ current ∧
      p.Fits current (r.view a) ∧ (a ∈ r.tracked ↔ current ≠ [])) ∧
    (∀ w now, (r.track w.address w.status ⟨w, some now, none⟩).1 = true ↔
      w.status = .inProgress ∧ w.address ∉ r.tracked) ∧
    (r.join.1 = .nothing → r.tracked = [] ∧ ∀ a, ∃ past : List (Episode γ),
      (∀ e ∈ past, p.ComesTo e.watcher e.stopped e.status) ∧
      marks a history = past.flatMap Episode.marks) := by
  have hkept := kept_of_runs hperiod h
  refine ⟨?_, ?_, fun a => ?_, fun w now => Roster.track_eq .., fun hjoin => ?_⟩
  · refine List.nodup_iff_count_le_one.mpr fun a => ?_
    obtain ⟨past, current, -, -, hfits⟩ := hkept a
    exact hfits.tracks.2.1
  · refine List.perm_iff_count.mpr fun a => ?_
    obtain ⟨past, current, -, -, hfits⟩ := hkept a
    exact hfits.count_eq
  · obtain ⟨past, current, hpast, hmarks, hfits⟩ := hkept a
    exact ⟨past, current, hpast, hmarks, hfits, hfits.tracked_iff⟩
  · have hnone : r.tracked = [] := by
      refine tracked_eq_nil (p := p) hjoin fun a => ?_
      obtain ⟨past, current, -, -, hfits⟩ := hkept a
      exact ⟨current, hfits⟩
    refine ⟨hnone, fun a => ?_⟩
    obtain ⟨past, current, hpast, hmarks, hfits⟩ := hkept a
    have hcurrent : current = [] := by
      by_contra hsome
      have hmem := hfits.tracked_iff.mpr hsome
      rw [hnone] at hmem
      exact List.not_mem_nil hmem
    rw [hcurrent, List.append_nil] at hmarks
    exact ⟨past, hpast, hmarks⟩

namespace Sample

/-! ## A game that is over when it is first looked at -/

def overAtOnce : Surroundings Unit Unit where
  chain game what := match what with
    | .status => .ok .challengerWins
    | what => chain .zero .zero game what
  clock := 5
  node := node

def polling : Polling Unit Unit where
  period := 12000
  tick := Watcher.tick
  answer _ := overAtOnce.answer
  delay _ _ _ := some 0
  stopped _ := false

/-- The watcher is tracked, and the end of its task is waited for. -/
def tracked : Bool × Schedule Unit Unit := (⟨0, {}, (), []⟩ : Schedule Unit Unit).track watcher

def joined : Joined × Schedule Unit Unit := polling.awaitNext tracked.2 100 2

end Sample

open Sample in
/-- The result is handed over, and then the address is free again. -/
theorem bookkeeping_sample : joined.1 = .ended .zero .challengerWins ∧
    joined.2.roster.tracked = [] ∧ ∃ (more : List (Event Unit)) (past : List (Episode Unit)),
      (∀ e ∈ past, polling.ComesTo e.watcher e.stopped e.status) ∧
      marks .zero ([.tracked watcher true] ++ more ++ [.joined (.ended .zero .challengerWins)]) =
        past.flatMap Episode.marks := by
  have hjoined : joined.1 = .ended .zero .challengerWins := rfl
  obtain ⟨more, hruns⟩ := (Polling.Runs.start (p := polling)).track (s := ⟨0, {}, (), []⟩) watcher
    |>.awaitNext 100 2
  have hbooks := bookkeeping (Nat.succ_ne_zero _) hruns
  obtain ⟨hnone, hpast⟩ := hbooks.2.2.2.2 rfl
  obtain ⟨past, hpast, hmarks⟩ := hpast .zero
  exact ⟨hjoined, hnone, more, past, hpast, hmarks⟩

end Watchtower
