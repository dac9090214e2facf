import Watchtower.Proofs.Chronicle

/-!
# The pace of a game

* `Paced period sights phase` : a task is started and waits; a tick begins at the very time that it
  waits for, and asks one question after another, each when the answer to the last is there, until
  it ends; then the task waits for a period after the beginning of the tick, or for its end if that
  is later, or is over. `Paced.starts_apart` : ticks begin a period apart;
* `p.Follows home a now view phase` : what the roster knows of a game in a phase, with no time that
  is waited for gone by;
* `p.Timed home seen s` : both, for every game; a step keeps it (`Timed.step`), and so does whatever
  a command does (`Timed.does`), so that it holds in every chronicle (`Chronicle.timed`);
* `Chronicle.tracked_iff`, `Timed.seen_iff` : which games are tracked and seen;
* `Does.stopped` : once there is the signal to stop, all that is seen is that every task ends;
* `Chronicle.recorded` : the beginnings that are seen are those that the schedule records.
-/

namespace Watchtower

variable {γ σ : Type} {p : Polling γ σ} {home : γ → Address} {a b : Address} {now : Nat}
  {task : Task γ}

/-! ## The pace -/

/-- Where the task of a game is. -/
inductive Phase
  | away
  /-- The next tick is to begin at a time. -/
  | waiting (due : Nat)
  /-- A tick began at a time, and goes on at another, if ever. -/
  | within (began : Nat) (next : Option Nat)
  | ended

inductive Paced (period : Nat) : List (Sight γ) → Phase → Prop
  | away : Paced period [] .away
  | tracked (now : Nat) : Paced period [.tracked now] (.waiting now)
  | begins {sights : List (Sight γ)} {due : Nat} (h : Paced period sights (.waiting due)) :
      Paced period (sights ++ [.begins due]) (.within due (some due))
  | asks {sights : List (Sight γ)} {began now : Nat}
      (h : Paced period sights (.within began (some now))) (q : Watch.Ask γ) (delay : Option Nat) :
      Paced period (sights ++ [.asks now q delay]) (.within began (delay.map (now + ·)))
  | hangs {sights : List (Sight γ)} {began now : Nat}
      (h : Paced period sights (.within began (some now))) :
      Paced period (sights ++ [.hangs now]) (.within began none)
  | goesOn {sights : List (Sight γ)} {began now : Nat}
      (h : Paced period sights (.within began (some now))) :
      Paced period (sights ++ [.ends now .inProgress]) (.waiting (max (began + period) now))
  | resolved {sights : List (Sight γ)} {began now : Nat} {status : Game.Status}
      (h : Paced period sights (.within began (some now))) (hover : status ≠ .inProgress) :
      Paced period (sights ++ [.ends now status]) .ended
  | stoppedWaiting {sights : List (Sight γ)} {due now : Nat}
      (h : Paced period sights (.waiting due)) (hnow : now ≤ due) :
      Paced period (sights ++ [.stops now]) .ended
  | stoppedWithin {sights : List (Sight γ)} {began now : Nat} {next : Option Nat}
      (h : Paced period sights (.within began next)) (hbegan : began ≤ now)
      (hnow : ∀ t, next = some t → now ≤ t) : Paced period (sights ++ [.stops now]) .ended

/-- Where the task is when a tick has come so far. -/
def Progress.phase (period now began : Nat) : Progress γ → Phase
  | .ended watcher =>
    if watcher.status = .inProgress then .waiting (max (began + period) now) else .ended
  | .waiting delay _ => .within began (delay.map (now + ·))

section
variable {period : Nat} {sights : List (Sight γ)} {phase : Phase}

/-- A tick that goes on when it is to asks what it does in time. -/
theorem Paced.tells {began : Nat} (h : Paced period sights (.within began (some now)))
    (p : Polling γ σ) (game : γ) (prog : Program (Watch γ) (Watcher γ)) (world : σ) :
    Paced period (sights ++ p.tells now game prog world)
      ((p.advance game prog world).1.phase period now began) := by
  induction prog generalizing sights world with
  | done watcher =>
    dsimp only [Polling.tells, Polling.advance, Progress.phase]
    split
    · next hgoes =>
      rw [hgoes]
      exact h.goesOn
    · next hover => exact h.resolved hover
  | stuck => exact h.hangs
  | ask q next ih =>
    have hasked := h.asks q (p.delay game q world)
    unfold Polling.tells Polling.advance
    cases hdelay : p.delay game q world with
    | none =>
      rw [hdelay] at hasked
      exact hasked
    | some delay =>
      rw [hdelay] at hasked
      cases delay with
      | zero =>
        have hrest := ih (p.answer game q world).1 hasked (p.answer game q world).2
        rw [List.append_assoc] at hrest
        exact hrest
      | succ delay => exact hasked

end

/-! ## What the roster knows -/

/-- What a schedule records of the ticks of a game, the first one first. -/
def Schedule.starts (s : Schedule γ σ) (home : γ → Address) (a : Address) : List Nat :=
  (s.begun.reverse.filter (home ·.1 = a)).map (·.2)

section
variable {s : Schedule γ σ} {watcher : Watcher γ}

theorem Schedule.roster_track_refused (h : (s.track watcher).1 = false) :
    (s.track watcher).2.roster = s.roster :=
  Roster.track_refused h

theorem Schedule.view_track_started (h : (s.track watcher).1 = true) :
    (s.track watcher).2.roster.view watcher.address =
      ⟨(s.roster.view watcher.address).tracked + 1,
        (s.roster.view watcher.address).running ++ [⟨watcher, some s.now, none⟩],
        (s.roster.view watcher.address).finished⟩ :=
  Roster.view_track_self h

theorem Schedule.view_track_of_ne (hne : a ≠ watcher.address) :
    (s.track watcher).2.roster.view a = s.roster.view a :=
  Roster.view_track_of_ne hne

end

namespace Polling

/-- A tick leaves a watcher of the same game. -/
def KeepsGame (p : Polling γ σ) : Prop :=
  ∀ {w v : Watcher γ} {trace : List (Exchange (Watch γ))},
    (p.tick w).Yields trace v → v.game = w.game

theorem Plays.game {w v : Watcher γ} (hkeeps : p.KeepsGame) (h : p.Plays w v) :
    v.game = w.game := by
  induction h with
  | start => rfl
  | tick _ _ htick ih => exact (hkeeps htick).trans ih

inductive Follows (p : Polling γ σ) (home : γ → Address) (a : Address) (now : Nat) :
    View (Task γ) → Phase → Prop
  | away : Follows p home a now ⟨0, [], []⟩ .away
  | waiting {w w' : Watcher γ} {due : Nat} (h : p.Playing w ⟨w', some due, none⟩)
      (hhome : home w.game = a) (hdue : now ≤ due) :
      Follows p home a now ⟨1, [⟨w', some due, none⟩], []⟩ (.waiting due)
  | within {w w' : Watcher γ} {due : Option Nat} {began : Nat}
      {rest : Program (Watch γ) (Watcher γ)} (h : p.Playing w ⟨w', due, some (began, rest)⟩)
      (hhome : home w.game = a) (hdue : ∀ d, due = some d → now ≤ d) (hbegan : began ≤ now) :
      Follows p home a now ⟨1, [⟨w', due, some (began, rest)⟩], []⟩ (.within began due)
  | ended {status : Game.Status} : Follows p home a now ⟨1, [], [status]⟩ .ended

section
variable {view : View (Task γ)} {phase : Phase} {now' : Nat}

theorem Follows.playing (h : p.Follows home a now view phase) (htask : task ∈ view.running) :
    view = ⟨1, [task], []⟩ ∧ (∃ w, p.Playing w task ∧ home w.game = a) ∧
      ∀ d, task.due = some d → now ≤ d := by
  cases h with
  | away | ended => exact absurd htask List.not_mem_nil
  | waiting h hhome hdue =>
    obtain rfl := List.mem_singleton.mp htask
    refine ⟨rfl, ⟨_, h, hhome⟩, fun d hd => ?_⟩
    obtain rfl := Option.some.inj hd
    exact hdue
  | within h hhome hdue =>
    obtain rfl := List.mem_singleton.mp htask
    exact ⟨rfl, ⟨_, h, hhome⟩, hdue⟩

theorem Follows.later (h : p.Follows home a now view phase) (hle : now ≤ now')
    (hdue : ∀ task ∈ view.running, ∀ d, task.due = some d → now' ≤ d) :
    p.Follows home a now' view phase := by
  cases h with
  | away => exact .away
  | ended => exact .ended
  | waiting h hhome => exact .waiting h hhome (hdue _ List.mem_cons_self _ rfl)
  | within h hhome _ hbegan =>
    exact .within h hhome (hdue _ List.mem_cons_self) (Nat.le_trans hbegan hle)

variable {sights : List (Sight γ)}

theorem Follows.stops (h : p.Follows home a now view phase) (hpaced : Paced p.period sights phase)
    (htask : task ∈ view.running) : Paced p.period (sights ++ [.stops now]) .ended := by
  cases h with
  | away | ended => exact absurd htask List.not_mem_nil
  | waiting _ _ hdue => exact hpaced.stoppedWaiting hdue
  | within _ _ hdue hbegan => exact hpaced.stoppedWithin hbegan hdue

/-- A task that is due is within a tick, or begins one. -/
theorem Follows.opened (h : p.Follows home a now view phase) (hpaced : Paced p.period sights phase)
    (htask : task ∈ view.running) (hdue : task.due = some now') :
    Paced p.period (sights ++ task.opening now') (.within (task.began now') (some now')) ∧
      task.began now' ≤ now' := by
  cases h with
  | away | ended => exact absurd htask List.not_mem_nil
  | waiting =>
    obtain rfl := List.mem_singleton.mp htask
    obtain rfl := Option.some.inj hdue
    exact ⟨hpaced.begins, le_rfl⟩
  | @within _ w due began rest _ _ hlater hbegan =>
    obtain rfl := List.mem_singleton.mp htask
    obtain rfl : due = some now' := hdue
    have hopening : (⟨w, some now', some (began, rest)⟩ : Task γ).opening now' = [] := rfl
    rw [hopening, List.append_nil]
    exact ⟨hpaced, Nat.le_trans hbegan (hlater now' rfl)⟩

/-- When its task goes on in time, a game keeps its pace. -/
theorem Follows.goes (hperiod : p.period ≠ 0) (h : p.Follows home a now view phase)
    (hpaced : Paced p.period sights phase) (htask : task ∈ view.running) (world : σ)
    (hgoes : p.stopped world = false → task.due = some now')
    (hstops : p.stopped world = true → now' = now) :
    ∃ phase', Paced p.period (sights ++ p.sights now' task world) phase' ∧
      p.Follows home a now' (view.after (p.go now' task world).1) phase' := by
  obtain ⟨rfl, ⟨w, hplaying, hhome⟩, -⟩ := h.playing htask
  have hbecomes := becomes_go hperiod hplaying now' world
  rw [go_eq hperiod] at hbecomes ⊢
  unfold Polling.sights
  cases hstopped : p.stopped world with
  | true =>
    -- The signal wakes the task before it is due.
    obtain rfl := hstops hstopped
    exact ⟨.ended, h.stops hpaced htask, .ended⟩
  | false =>
    rw [hstopped, if_neg Bool.false_ne_true] at hbecomes
    obtain ⟨hopened, hbegan⟩ := h.opened hpaced htask (hgoes hstopped)
    have htells := hopened.tells p task.watcher.game (p.left task) world
    rw [List.append_assoc] at htells
    refine ⟨_, htells, ?_⟩
    rw [if_neg Bool.false_ne_true]
    generalize (p.advance task.watcher.game (p.left task) world).1 = progress at hbecomes ⊢
    cases progress with
    | waiting delay rest =>
      refine .within hbecomes hhome (fun d hd => ?_) hbegan
      obtain ⟨delay, -, rfl⟩ := Option.map_eq_some_iff.mp hd
      exact Nat.le_add_right ..
    | ended watcher =>
      dsimp only [Progress.outcome, Progress.phase] at hbecomes ⊢
      split at hbecomes
      · next hgoes =>
        rw [if_pos hgoes, if_pos hgoes]
        exact .waiting hbecomes hhome (Nat.le_max_right ..)
      · next hover =>
        rw [if_neg hover, if_neg hover]
        exact .ended

end

/-! ## Every game keeps its pace -/

/-- Every game keeps its pace, and the roster knows where it is. -/
def Timed (p : Polling γ σ) (home : γ → Address) (seen : List (Address × Sight γ))
    (s : Schedule γ σ) : Prop :=
  ∀ a, ∃ phase, Paced p.period (sightsOf a seen) phase ∧
    p.Follows home a s.now (s.roster.view a) phase

section
variable {seen : List (Address × Sight γ)} {s s' : Schedule γ σ} {before due : Nat}

theorem Timed.playing (h : p.Timed home seen s) (hrunning : (a, task) ∈ s.roster.running) :
    s.roster.view a = ⟨1, [task], []⟩ ∧ (∃ w, p.Playing w task ∧ home w.game = a) ∧
      ∀ d, task.due = some d → s.now ≤ d := by
  obtain ⟨phase, -, hfollows⟩ := h a
  exact hfollows.playing (Roster.mem_running_view.mpr hrunning)

/-- The task that goes on first does so when it is due, or at once if there is the signal to
stop. -/
theorem Steps.now_eq (h : p.Steps s before a task due s')
    (hdue : ∀ d, task.due = some d → s.now ≤ d) :
    (p.stopped s.world = false → task.due = some (max s.now due)) ∧
      (p.stopped s.world = true → max s.now due = s.now) := by
  have hawaited := h.awaited
  unfold dueTime at hawaited
  constructor
  · intro hgoes
    rw [hgoes, if_neg Bool.false_ne_true] at hawaited
    rw [max_eq_right (hdue due hawaited), hawaited]
  · intro hstops
    rw [hstops, if_pos rfl] at hawaited
    obtain rfl := Option.some.inj hawaited
    exact max_self _

/-- No other task is due before. -/
theorem Steps.now_le (h : p.Steps s before a task due s') {e : Address × Task γ}
    (he : e ∈ s.roster.running) {d : Nat} (hd : e.2.due = some d) (hdue : s.now ≤ d) :
    max s.now due ≤ d := by
  refine max_le hdue ?_
  have hfirst := h.first e he
  unfold dueTime at hfirst
  split at hfirst
  · exact Nat.le_trans (hfirst _ rfl) hdue
  · exact hfirst d hd

theorem Timed.step (hperiod : p.period ≠ 0) (h : p.Timed home seen s)
    (hsteps : p.Steps s before b task due s') : p.Timed home (seen ++ p.seenNext s before) s' := by
  intro a
  obtain ⟨phase, hpaced, hfollows⟩ := h a
  rw [sightsOf_append, hsteps.seen]
  obtain rfl := hsteps.next
  by_cases hab : a = b
  · subst hab
    obtain ⟨-, -, hdue⟩ := h.playing hsteps.running
    obtain ⟨hgoes, hstops⟩ := hsteps.now_eq hdue
    rw [sightsOf_map_self, Roster.view_after_self]
    exact hfollows.goes hperiod hpaced (Roster.mem_running_view.mpr hsteps.running) s.world hgoes
      hstops
  · rw [sightsOf_map_of_ne hab, List.append_nil, Roster.view_after_of_ne hab]
    refine ⟨phase, hpaced, hfollows.later (Nat.le_max_left ..) fun task' htask d hd => ?_⟩
    have hrunning := Roster.mem_running_view.mp htask
    exact hsteps.now_le hrunning hd ((h.playing hrunning).2.2 d hd)

theorem Timed.runBefore (hperiod : p.period ≠ 0) (h : p.Timed home seen s) (hnow : s.now ≤ before)
    (steps : Nat) : p.Timed home (seen ++ p.seenBefore s before steps)
      (p.runBefore s before steps) ∧ (p.runBefore s before steps).now ≤ before := by
  induction steps generalizing seen s with
  | zero => exact ⟨by rwa [seenBefore, List.append_nil], hnow⟩
  | succ steps ih =>
    cases hstep : p.step s before with
    | none =>
      rw [runBefore_of_none hstep, seenBefore_of_none hstep, List.append_nil]
      exact ⟨h, hnow⟩
    | some s' =>
      rw [runBefore_of_some hstep, seenBefore_of_some hstep]
      obtain ⟨a, task, due, hsteps⟩ := steps_of_step hstep
      have hnext : s'.now ≤ before := by
        rw [hsteps.next]
        exact max_le hnow (Nat.le_of_lt hsteps.soon)
      have htimed := ih (h.step hperiod hsteps) hnext
      rwa [List.append_assoc] at htimed

theorem Timed.pass (hperiod : p.period ≠ 0) (h : p.Timed home seen s) {duration steps : Nat}
    (hdone : p.step (p.runBefore s (s.now + duration) steps) (s.now + duration) = none) :
    p.Timed home (seen ++ p.seenBefore s (s.now + duration) steps) (p.pass s duration steps) := by
  obtain ⟨htimed, hnow⟩ := h.runBefore hperiod (Nat.le_add_right s.now duration) steps
  -- Nothing is due before the end any more, so the time that is left passes at once.
  intro a
  obtain ⟨phase, hpaced, hfollows⟩ := htimed a
  refine ⟨phase, hpaced, hfollows.later hnow fun task htask d hd => ?_⟩
  have hrunning := Roster.mem_running_view.mp htask
  have hlate := step_eq_none hdone _ hrunning
  unfold dueTime at hlate
  split at hlate
  · exact Nat.le_trans (hlate _ rfl) ((htimed.playing hrunning).2.2 d hd)
  · exact hlate d hd

theorem Timed.track (h : p.Timed home seen s) {watcher : Watcher γ}
    (hhome : home watcher.game = watcher.address) :
    p.Timed home (seen ++ if (s.track watcher).1 then [(watcher.address, .tracked s.now)] else [])
      (s.track watcher).2 := by
  intro a
  obtain ⟨phase, hpaced, hfollows⟩ := h a
  cases hstarted : (s.track watcher).1 with
  | false =>
    rw [if_neg Bool.false_ne_true, List.append_nil]
    rw [Schedule.roster_track_refused hstarted]
    exact ⟨phase, hpaced, hfollows⟩
  | true =>
    rw [if_pos rfl, sightsOf_append]
    obtain ⟨hgoes, hfree⟩ := (Roster.track_eq ..).mp hstarted
    by_cases ha : a = watcher.address
    · subst ha
      have hcount : (s.roster.view watcher.address).tracked = 0 := List.count_eq_zero.mpr hfree
      rw [Schedule.view_track_started hstarted]
      generalize s.roster.view watcher.address = view at hfollows hcount ⊢
      cases hfollows with
      | waiting | within | ended => exact nomatch hcount
      | away =>
        generalize sightsOf watcher.address seen = sights at hpaced ⊢
        cases hpaced
        rw [List.nil_append, sightsOf_self]
        exact ⟨_, .tracked s.now, .waiting (playing_start p s.now hgoes) hhome le_rfl⟩
    · rw [Schedule.view_track_of_ne ha, sightsOf_of_ne ha, List.append_nil]
      exact ⟨phase, hpaced, hfollows⟩

variable {world : σ} {script : List (Command γ σ)} {command : Command γ σ}
  {more : List (Address × Sight γ)}

theorem Timed.does (hperiod : p.period ≠ 0) (h : p.Timed home seen s)
    (hhomely : command.Homely home) (hdoes : p.Does s command more s') :
    p.Timed home (seen ++ more) s' := by
  cases hdoes with
  | track watcher => exact h.track hhomely
  | pass duration steps hdone => exact h.pass hperiod hdone
  | change | alter => rwa [List.append_nil]

theorem Chronicle.timed (hperiod : p.period ≠ 0) (h : p.Chronicle world script seen s)
    (hhomely : ∀ c ∈ script, c.Homely home) : p.Timed home seen s := by
  induction h with
  | start => exact fun _ => ⟨.away, .away, .away⟩
  | snoc _ hdoes ih =>
    rw [List.forall_mem_append, List.forall_mem_singleton] at hhomely
    exact (ih hhomely.1).does hperiod hhomely.2 hdoes

/-! ## Which games are seen -/

theorem tracked_runBefore (p : Polling γ σ) (s : Schedule γ σ) (before steps : Nat) :
    (p.runBefore s before steps).roster.tracked = s.roster.tracked := by
  induction steps generalizing s with
  | zero => rfl
  | succ steps ih =>
    cases hstep : p.step s before with
    | none => rw [runBefore_of_none hstep]
    | some s' =>
      obtain ⟨a, task, due, hsteps⟩ := steps_of_step hstep
      rw [runBefore_of_some hstep, ih, hsteps.next]
      dsimp only
      generalize (p.go (max s.now due) task s.world).1 = outcome
      cases outcome <;> rfl

/-- The watchers that are to be tracked while their game is in progress are what is tracked. -/
theorem Chronicle.tracked_iff (h : p.Chronicle world script seen s) : a ∈ s.roster.tracked ↔
    ∃ w, .track w ∈ script ∧ w.address = a ∧ w.status = .inProgress := by
  induction h with
  | start => simp
  | @snoc script _ _ _ _ command _ hdoes ih =>
    have hsame (hother : ∀ w, command ≠ .track w) :
        (∃ w, .track w ∈ script ++ [command] ∧ w.address = a ∧ w.status = .inProgress) ↔
          ∃ w, .track w ∈ script ∧ w.address = a ∧ w.status = .inProgress := by
      simp [fun w => (hother w).symm]
    cases hdoes with
    | track watcher =>
      refine Roster.mem_track_iff.trans ?_
      rw [ih]
      constructor
      · rintro (⟨w, hw, ha, hgoes⟩ | ⟨ha, hgoes⟩)
        · exact ⟨w, List.mem_append_left _ hw, ha, hgoes⟩
        · exact ⟨watcher, List.mem_append_right _ List.mem_cons_self, ha, hgoes⟩
      · rintro ⟨w, hw, ha, hgoes⟩
        rcases List.mem_append.mp hw with hw | hw
        · exact .inl ⟨w, hw, ha, hgoes⟩
        · obtain rfl := Command.track.inj (List.mem_singleton.mp hw)
          exact .inr ⟨ha, hgoes⟩
    | pass =>
      rw [hsame nofun, ← ih]
      unfold Polling.pass
      rw [tracked_runBefore]
    | change => rw [hsame nofun, ← ih]
    | alter => rw [hsame nofun, ← ih]

theorem go_stopped (hperiod : p.period ≠ 0) (now : Nat) (task : Task γ)
    (hstopped : p.stopped world = true) :
    p.go now task world = (.ended task.watcher.status, world) ∧
      p.sights now task world = [.stops now] := by
  rw [go_eq hperiod, sights, if_pos hstopped, if_pos hstopped]
  exact ⟨rfl, rfl⟩

/-- What is seen of a game if its task ends at once. -/
def stopsOf (a : Address) (now : Nat) (r : Roster (Task γ)) : List (Sight γ) :=
  (r.view a).running.map fun _ => .stops now

theorem Steps.stopped (hperiod : p.period ≠ 0) (h : p.Timed home seen s)
    (hsteps : p.Steps s before b task due s') (hstopped : p.stopped s.world = true) :
    s'.now = s.now ∧ s'.world = s.world ∧ ∀ a,
      sightsOf a (p.seenNext s before) ++ stopsOf a s.now s'.roster = stopsOf a s.now s.roster := by
  obtain ⟨hview, -, hdue⟩ := h.playing hsteps.running
  have hnow := (hsteps.now_eq hdue).2 hstopped
  obtain ⟨hgo, hsights⟩ := go_stopped hperiod s.now task hstopped
  rw [hsteps.seen, hsteps.next, hnow, hgo, hsights]
  refine ⟨rfl, rfl, fun a => ?_⟩
  unfold stopsOf
  by_cases hab : a = b
  · subst hab
    rw [sightsOf_map_self, Roster.view_after_self, hview]
    rfl
  · rw [sightsOf_map_of_ne hab, Roster.view_after_of_ne hab, List.nil_append]

theorem runBefore_stopped (hperiod : p.period ≠ 0) (h : p.Timed home seen s)
    (hstopped : p.stopped s.world = true) (before steps : Nat) :
    (p.runBefore s before steps).now = s.now ∧ (p.runBefore s before steps).world = s.world ∧
      ∀ a, sightsOf a (p.seenBefore s before steps) ++
        stopsOf a s.now (p.runBefore s before steps).roster = stopsOf a s.now s.roster := by
  induction steps generalizing seen s with
  | zero => exact ⟨rfl, rfl, fun _ => rfl⟩
  | succ steps ih =>
    cases hstep : p.step s before with
    | none =>
      rw [runBefore_of_none hstep, seenBefore_of_none hstep]
      exact ⟨rfl, rfl, fun _ => rfl⟩
    | some s' =>
      rw [runBefore_of_some hstep, seenBefore_of_some hstep]
      obtain ⟨a, task, due, hsteps⟩ := steps_of_step hstep
      obtain ⟨hnow, hworld, hstops⟩ := hsteps.stopped hperiod h hstopped
      obtain ⟨hnow', hworld', hstops'⟩ := ih (h.step hperiod hsteps) (by rwa [hworld])
      rw [hnow] at hnow' hstops'
      refine ⟨hnow', hworld'.trans hworld, fun a => ?_⟩
      rw [sightsOf_append, List.append_assoc, hstops', hstops]

/-- Once there is the signal to stop, all tasks end as soon as time passes, and nothing else is
seen. -/
theorem Does.stopped (hperiod : p.period ≠ 0) (h : p.Timed home seen s)
    (hstopped : p.stopped s.world = true) {duration : Nat} (hpasses : 0 < duration)
    (hdoes : p.Does s (.pass duration) more s') :
    s'.roster.running = [] ∧ ∀ a, sightsOf a more = stopsOf a s.now s.roster := by
  cases hdoes with
  | pass _ steps hdone =>
    obtain ⟨hnow, hworld, hstops⟩ :=
      runBefore_stopped hperiod h hstopped (s.now + duration) steps
    have hnone : (p.runBefore s (s.now + duration) steps).roster.running = [] := by
      refine List.eq_nil_iff_forall_not_mem.mpr fun e he => ?_
      have hlate := step_eq_none hdone e he s.now
      rw [dueTime, hworld, hstopped, if_pos rfl, hnow] at hlate
      have hle := hlate rfl
      omega
    refine ⟨hnone, fun a => ?_⟩
    rw [← hstops a, stopsOf, Roster.view, hnone]
    exact (List.append_nil _).symm

/-! ## The record of the schedule -/

theorem Timed.game (hkeeps : p.KeepsGame) (h : p.Timed home seen s)
    (hrunning : (a, task) ∈ s.roster.running) : home task.watcher.game = a := by
  obtain ⟨-, ⟨w, hplaying, hhome⟩, -⟩ := h.playing hrunning
  rw [hplaying.plays.game hkeeps, hhome]

/-- The beginnings that are seen are recorded. -/
def Recorded (home : γ → Address) (seen : List (Address × Sight γ)) (s : Schedule γ σ) : Prop :=
  ∀ a, starts (sightsOf a seen) = s.starts home a

theorem Recorded.step (hperiod : p.period ≠ 0) (hkeeps : p.KeepsGame) (htimed : p.Timed home seen s)
    (h : Recorded home seen s) (hsteps : p.Steps s before b task due s') :
    Recorded home (seen ++ p.seenNext s before) s' := by
  intro a
  have hgame := htimed.game hkeeps hsteps.running
  have hstarts := starts_sights p (max s.now due) task s.world
  rw [sightsOf_append, starts_append, h a, hsteps.seen, hsteps.next]
  unfold Schedule.starts
  rw [decide_eq_true hperiod, Bool.and_true]
  by_cases hab : a = b
  · subst hab
    rw [sightsOf_map_self, hstarts]
    split <;> simp [hgame]
  · rw [sightsOf_map_of_ne hab]
    split <;> simp [starts, hgame, Ne.symm hab]

theorem Recorded.runBefore (hperiod : p.period ≠ 0) (hkeeps : p.KeepsGame)
    (htimed : p.Timed home seen s) (h : Recorded home seen s) (steps : Nat) :
    Recorded home (seen ++ p.seenBefore s before steps) (p.runBefore s before steps) := by
  induction steps generalizing seen s with
  | zero => rwa [seenBefore, List.append_nil]
  | succ steps ih =>
    cases hstep : p.step s before with
    | none => rwa [runBefore_of_none hstep, seenBefore_of_none hstep, List.append_nil]
    | some s' =>
      rw [runBefore_of_some hstep, seenBefore_of_some hstep]
      obtain ⟨a, task, due, hsteps⟩ := steps_of_step hstep
      have hrecorded := ih (htimed.step hperiod hsteps) (h.step hperiod hkeeps htimed hsteps)
      rwa [List.append_assoc] at hrecorded

theorem Recorded.track (h : Recorded home seen s) (watcher : Watcher γ) :
    Recorded home
      (seen ++ if (s.track watcher).1 then [(watcher.address, .tracked s.now)] else [])
      (s.track watcher).2 := by
  intro a
  rw [sightsOf_append, starts_append, h a]
  refine (congrArg (s.starts home a ++ ·) ?_).trans (List.append_nil _)
  split
  · by_cases ha : a = watcher.address
    · subst ha
      rw [sightsOf_self]
      rfl
    · rw [sightsOf_of_ne ha]
      rfl
  · rfl

end

end Polling

end Watchtower
