import Watchtower.Proofs.Pacing
import Watchtower.Proofs.Submissions

/-!
# Games do not hold each other up

* `p.Apart home sees` : what is answered in a tick of a game, and after which delay, depends on what
  the game sees of its surroundings and does not change what others see;
* `concerning a script` : the script without the other games. It is played beside the script:
  `p.Alike sees a s s₀` says that the game at `a` is where it is when it is alone. The steps of
  others leave it there (`Alike.step_other`), and its own are made on both sides
  (`Alike.step_self`);
* `Chronicle.alone` : so what is seen of a game in a chronicle is what is seen of it alone;
* `games_apart` : every game keeps its pace, whether or not the ticks of others end, and what is
  seen of it does not depend on which others are tracked.
-/

namespace Watchtower

variable {γ σ ν : Type} {p : Polling γ σ} {home : γ → Address} {sees : Address → σ → ν}
  {a b : Address} {world world' : σ} {task : Task γ} {game : γ} {now : Nat}

/-! ## Surroundings that can be told apart -/

namespace Polling

structure Apart (p : Polling γ σ) (home : γ → Address) (sees : Address → σ → ν) : Prop where
  delay : ∀ {game q s s'}, sees (home game) s = sees (home game) s' →
    p.delay game q s = p.delay game q s'
  reply : ∀ {game q s s'}, sees (home game) s = sees (home game) s' →
    (p.answer game q s).1 = (p.answer game q s').1
  own : ∀ {game q s s'}, sees (home game) s = sees (home game) s' →
    sees (home game) (p.answer game q s).2 = sees (home game) (p.answer game q s').2
  others : ∀ {game q s a}, a ≠ home game → sees a (p.answer game q s).2 = sees a s
  /-- Every game sees whether there is the signal to stop. -/
  stopped : ∀ {a s s'}, sees a s = sees a s' → p.stopped s = p.stopped s'
  keepsGame : p.KeepsGame

theorem Apart.advance (h : p.Apart home sees) (now : Nat) (prog : Program (Watch γ) (Watcher γ))
    (hsees : sees (home game) world = sees (home game) world') :
    (p.advance game prog world).1 = (p.advance game prog world').1 ∧
      p.tells now game prog world = p.tells now game prog world' ∧
      sees (home game) (p.advance game prog world).2 =
        sees (home game) (p.advance game prog world').2 := by
  induction prog generalizing world world' with
  | done watcher => exact ⟨rfl, rfl, hsees⟩
  | stuck => exact ⟨rfl, rfl, hsees⟩
  | ask q next ih =>
    unfold Polling.advance tells
    rw [← h.delay hsees, ← h.reply hsees]
    cases p.delay game q world with
    | none => exact ⟨rfl, rfl, h.own hsees⟩
    | some delay =>
      cases delay with
      | zero =>
        obtain ⟨hprogress, htells, hown⟩ := ih (p.answer game q world).1 (h.own hsees)
        exact ⟨hprogress, congrArg (.asks now q (some 0) :: ·) htells, hown⟩
      | succ delay => exact ⟨rfl, rfl, h.own hsees⟩

theorem Apart.advance_others (h : p.Apart home sees) (prog : Program (Watch γ) (Watcher γ))
    (hother : a ≠ home game) : sees a (p.advance game prog world).2 = sees a world := by
  induction prog generalizing world with
  | done watcher => rfl
  | stuck => rfl
  | ask q next ih =>
    unfold Polling.advance
    split
    · rw [ih, h.others hother]
    · exact h.others hother
    · exact h.others hother

/-- A task does the same in whatever looks the same to its game. -/
theorem Apart.go (h : p.Apart home sees) (hperiod : p.period ≠ 0) (now : Nat)
    (hsees : sees (home task.watcher.game) world = sees (home task.watcher.game) world') :
    (p.go now task world).1 = (p.go now task world').1 ∧
      p.sights now task world = p.sights now task world' ∧
      sees (home task.watcher.game) (p.go now task world).2 =
        sees (home task.watcher.game) (p.go now task world').2 := by
  obtain ⟨hprogress, htells, hown⟩ := h.advance now (p.left task) hsees
  rw [go_eq hperiod, go_eq hperiod, sights, sights, ← h.stopped hsees, hprogress, htells]
  cases p.stopped world with
  | true => exact ⟨rfl, rfl, hsees⟩
  | false => exact ⟨rfl, rfl, hown⟩

theorem Apart.go_others (h : p.Apart home sees) (hperiod : p.period ≠ 0) (now : Nat)
    (hother : a ≠ home task.watcher.game) : sees a (p.go now task world).2 = sees a world := by
  rw [go_eq hperiod]
  cases p.stopped world with
  | true => rfl
  | false => exact h.advance_others (p.left task) hother

/-! ## A game beside itself alone -/

variable {s s' s₀ : Schedule γ σ} {seen seen₀ more : List (Address × Sight γ)} {before due : Nat}

/-- The game at `a` is where it is in a schedule in which it is alone. -/
structure Alike (p : Polling γ σ) (sees : Address → σ → ν) (a : Address) (s s₀ : Schedule γ σ) :
    Prop where
  view : s.roster.view a = s₀.roster.view a
  alone : ∀ e ∈ s₀.roster.running, e.1 = a
  sees : sees a s.world = sees a s₀.world
  /-- The times may differ between the steps of the game, but it ends at the time at which it is
  told to. -/
  now : p.stopped s.world = true → s.now = s₀.now

theorem Alike.running_iff (h : p.Alike sees a s s₀) :
    (a, task) ∈ s.roster.running ↔ (a, task) ∈ s₀.roster.running := by
  rw [← Roster.mem_running_view, h.view, Roster.mem_running_view]

theorem Alike.dueTime (hapart : p.Apart home sees) (h : p.Alike sees a s s₀) (task : Task γ) :
    p.dueTime s task = p.dueTime s₀ task := by
  unfold Polling.dueTime
  rw [← hapart.stopped h.sees]
  split
  · next hstopped => rw [h.now hstopped]
  · rfl

/-- Others leave the game where it is. -/
theorem Alike.step_other (hperiod : p.period ≠ 0) (hapart : p.Apart home sees)
    (htimed : p.Timed home seen s) (h : p.Alike sees a s s₀)
    (hsteps : p.Steps s before b task due s') (hne : a ≠ b) :
    p.Alike sees a s' s₀ ∧ sightsOf a (p.seenNext s before) = [] := by
  obtain ⟨-, -, hdue⟩ := htimed.playing hsteps.running
  have hhome := htimed.game hapart.keepsGame hsteps.running
  have hsees : sees a s'.world = sees a s.world := by
    rw [hsteps.next]
    exact hapart.go_others hperiod _ (by rwa [hhome])
  rw [hsteps.seen]
  refine ⟨⟨?_, h.alone, hsees.trans h.sees, fun hstopped => ?_⟩, sightsOf_map_of_ne hne⟩
  · rw [hsteps.next, Roster.view_after_of_ne hne, h.view]
  · rw [hapart.stopped hsees] at hstopped
    rw [← h.now hstopped, hsteps.next]
    exact (hsteps.now_eq hdue).2 hstopped

theorem alone_after {r : Roster (Task γ)} {outcome : Outcome γ}
    (h : ∀ e ∈ r.running, e.1 = a) : ∀ e ∈ (r.after a outcome).running, e.1 = a := by
  have hothers : ∀ e ∈ r.running.filter (·.1 ≠ a), e.1 = a := fun e he =>
    h e (List.mem_of_mem_filter he)
  cases outcome with
  | running task =>
    exact List.forall_mem_append.mpr ⟨hothers, List.forall_mem_singleton.mpr rfl⟩
  | ended status => exact hothers
  | lost => exact hothers

/-- The game itself does the same when it is alone. -/
theorem Alike.step_self (hperiod : p.period ≠ 0) (hapart : p.Apart home sees)
    (htimed : p.Timed home seen s) (htimed₀ : p.Timed home seen₀ s₀) (h : p.Alike sees a s s₀)
    (hsteps : p.Steps s before a task due s') :
    ∃ s₀', p.step s₀ before = some s₀' ∧ p.Steps s₀ before a task due s₀' ∧ p.Alike sees a s' s₀' ∧
      p.seenNext s before = p.seenNext s₀ before := by
  have hrunning := h.running_iff.mp hsteps.running
  obtain ⟨hview, -, hdue⟩ := htimed.playing hsteps.running
  obtain ⟨-, -, hdue₀⟩ := htimed₀.playing hrunning
  have hhome := htimed.game hapart.keepsGame hsteps.running
  have hawaited := (h.dueTime hapart task).symm.trans hsteps.awaited
  -- There is no other task that could go on first.
  have hsoonest : p.soonest s₀ before = some (a, task, due) := by
    have hfirst := first_soonest p s₀ before
    cases hnext : p.soonest s₀ before with
    | none =>
      rw [hnext] at hfirst
      exact absurd (hfirst _ hrunning due hawaited) (Nat.not_le.mpr hsteps.soon)
    | some next =>
      obtain ⟨a', task', due'⟩ := next
      rw [hnext] at hfirst
      obtain ⟨hmem, hawaited', -⟩ := hfirst
      obtain rfl : a' = a := h.alone _ hmem
      have hmem' := Roster.mem_running_view.mpr hmem
      rw [← h.view, hview] at hmem'
      obtain rfl := List.mem_singleton.mp hmem'
      obtain rfl := Option.some.inj (hawaited.symm.trans hawaited')
      rfl
  obtain ⟨s₀', hstep₀, hsteps₀⟩ := steps_of_soonest hsoonest
  have hnow : max s₀.now due = max s.now due := by
    cases hstopped : p.stopped s.world with
    | true => rw [h.now hstopped]
    | false =>
      have hstopped₀ : p.stopped s₀.world = false := by rw [← hapart.stopped h.sees, hstopped]
      have hcrowded := (hsteps.now_eq hdue).1 hstopped
      have halone := (hsteps₀.now_eq hdue₀).1 hstopped₀
      exact Option.some.inj (halone.symm.trans hcrowded)
  have hlooks : sees (home task.watcher.game) s.world = sees (home task.watcher.game) s₀.world := by
    rw [hhome]
    exact h.sees
  obtain ⟨houtcome, hsights, hown⟩ := hapart.go hperiod (max s.now due) hlooks
  rw [hhome] at hown
  refine ⟨s₀', hstep₀, hsteps₀, ⟨?_, ?_, ?_, fun _ => ?_⟩, ?_⟩
  · rw [hsteps.next, hsteps₀.next, hnow, Roster.view_after_self, Roster.view_after_self, h.view,
      houtcome]
  · rw [hsteps₀.next]
    exact alone_after h.alone
  · rw [hsteps.next, hsteps₀.next, hnow]
    exact hown
  · rw [hsteps.next, hsteps₀.next, hnow]
  · rw [hsteps.seen, hsteps₀.seen, hnow, hsights]

/-- Where no task goes on any more, the game does not when it is alone. -/
theorem Alike.step_eq_none (hapart : p.Apart home sees) (h : p.Alike sees a s s₀)
    (hdone : p.step s before = none) : p.step s₀ before = none := by
  cases hstep : p.step s₀ before with
  | none => rfl
  | some s₀' =>
    obtain ⟨b, task, due, hsteps⟩ := steps_of_step hstep
    obtain rfl : b = a := h.alone _ hsteps.running
    have hlate := Polling.step_eq_none hdone _ (h.running_iff.mpr hsteps.running) due
    rw [h.dueTime hapart] at hlate
    exact absurd (hlate hsteps.awaited) (Nat.not_le.mpr hsteps.soon)

theorem Alike.runBefore (hperiod : p.period ≠ 0) (hapart : p.Apart home sees)
    (htimed : p.Timed home seen s) (htimed₀ : p.Timed home seen₀ s₀) (h : p.Alike sees a s s₀)
    (before steps : Nat) :
    ∃ steps₀, p.Alike sees a (p.runBefore s before steps) (p.runBefore s₀ before steps₀) ∧
      sightsOf a (p.seenBefore s before steps) = sightsOf a (p.seenBefore s₀ before steps₀) := by
  induction steps generalizing seen seen₀ s s₀ with
  | zero => exact ⟨0, h, rfl⟩
  | succ steps ih =>
    cases hstep : p.step s before with
    | none =>
      rw [runBefore_of_none hstep, seenBefore_of_none hstep]
      exact ⟨0, h, rfl⟩
    | some s' =>
      obtain ⟨b, task, due, hsteps⟩ := steps_of_step hstep
      have htimed' := htimed.step hperiod hsteps
      rw [runBefore_of_some hstep, seenBefore_of_some hstep, sightsOf_append]
      by_cases hab : a = b
      · subst hab
        obtain ⟨s₀', hstep₀, hsteps₀, h', hseen⟩ := h.step_self hperiod hapart htimed htimed₀ hsteps
        obtain ⟨steps₀, hruns, hlater⟩ := ih htimed' (htimed₀.step hperiod hsteps₀) h'
        refine ⟨steps₀ + 1, ?_⟩
        rw [runBefore_of_some hstep₀, seenBefore_of_some hstep₀, sightsOf_append, hseen, hlater]
        exact ⟨hruns, rfl⟩
      · obtain ⟨h', hnothing⟩ := h.step_other hperiod hapart htimed hsteps hab
        obtain ⟨steps₀, hruns, hlater⟩ := ih htimed' htimed₀ h'
        rw [hnothing, List.nil_append]
        exact ⟨steps₀, hruns, hlater⟩

end Polling

/-! ## Scripts -/

/-- What a game sees of a change depends on what it saw before. What surrounds one game changes for
no other. -/
def Command.Impartial (sees : Address → σ → ν) : Command γ σ → Prop
  | .change address f => (∀ s s', sees address s = sees address s' →
      sees address (f s) = sees address (f s')) ∧ ∀ a s, a ≠ address → sees a (f s) = sees a s
  | .alter f => ∀ a s s', sees a s = sees a s' → sees a (f s) = sees a (f s')
  | _ => True

def Command.concerns (a : Address) : Command γ σ → Bool
  | .track watcher => watcher.address = a
  | .change address _ => address = a
  | _ => true

/-- The script without the other games. -/
def concerning (a : Address) (script : List (Command γ σ)) : List (Command γ σ) :=
  script.filter (·.concerns a)

namespace Polling

variable {s s' s₀ : Schedule γ σ} {seen seen₀ more : List (Address × Sight γ)}
  {script : List (Command γ σ)} {command : Command γ σ}

theorem Alike.track (h : p.Alike sees a s s₀) (hnow : s.now = s₀.now) {watcher : Watcher γ}
    (ha : watcher.address = a) :
    (s.track watcher).1 = (s₀.track watcher).1 ∧
      p.Alike sees a (s.track watcher).2 (s₀.track watcher).2 := by
  subst ha
  have hfree : watcher.address ∈ s.roster.tracked ↔ watcher.address ∈ s₀.roster.tracked := by
    have hcount : s.roster.tracked.count watcher.address =
        s₀.roster.tracked.count watcher.address := congrArg View.tracked h.view
    rw [← List.count_pos_iff, hcount, List.count_pos_iff]
  have hstarted : (s.track watcher).1 = (s₀.track watcher).1 := by
    refine Bool.eq_iff_iff.mpr ((Roster.track_eq ..).trans (Iff.trans ?_ (Roster.track_eq ..).symm))
    rw [hfree]
  refine ⟨hstarted, ?_⟩
  cases hnew : (s₀.track watcher).1 with
  | false =>
    refine ⟨?_, ?_, h.sees, h.now⟩
    · rw [Schedule.roster_track_refused (hstarted.trans hnew), Schedule.roster_track_refused hnew,
        h.view]
    · rw [Schedule.roster_track_refused hnew]
      exact h.alone
  | true =>
    refine ⟨?_, ?_, h.sees, h.now⟩
    · rw [Schedule.view_track_started (hstarted.trans hnew), Schedule.view_track_started hnew,
        h.view, hnow]
    · have hrunning : (s₀.track watcher).2.roster.running =
          s₀.roster.running ++ [(watcher.address, ⟨watcher, some s₀.now, none⟩)] := by
        unfold Schedule.track Roster.track
        rw [if_pos ((Roster.track_eq ..).mp hnew)]
      rw [hrunning]
      exact List.forall_mem_append.mpr ⟨h.alone, List.forall_mem_singleton.mpr rfl⟩

/-- What concerns the game is done on both sides, and it is seen to do the same. -/
theorem Alike.does (hperiod : p.period ≠ 0) (hapart : p.Apart home sees)
    (htimed : p.Timed home seen s) (htimed₀ : p.Timed home seen₀ s₀) (h : p.Alike sees a s s₀)
    (hnow : s.now = s₀.now) (himpartial : command.Impartial sees)
    (hconcerns : command.concerns a = true) (hdoes : p.Does s command more s') :
    ∃ more₀ s₀', p.Does s₀ command more₀ s₀' ∧ p.Alike sees a s' s₀' ∧ s'.now = s₀'.now ∧
      sightsOf a more = sightsOf a more₀ := by
  cases hdoes with
  | track watcher =>
    obtain ⟨hstarted, h'⟩ := h.track hnow (of_decide_eq_true hconcerns)
    refine ⟨_, _, .track watcher, h', hnow, ?_⟩
    rw [hstarted, hnow]
  | pass duration steps hdone =>
    obtain ⟨steps₀, h', hseen⟩ :=
      h.runBefore hperiod hapart htimed htimed₀ (s.now + duration) steps
    have hdone₀ := h'.step_eq_none hapart hdone
    rw [hnow] at hdone₀ h' hseen
    refine ⟨_, _, .pass duration steps₀ hdone₀, ?_, congrArg (· + duration) hnow, ?_⟩
    · unfold Polling.pass
      rw [hnow]
      exact ⟨h'.view, h'.alone, h'.sees, fun _ => rfl⟩
    · rw [hnow]
      exact hseen
  | change address f =>
    obtain rfl : address = a := of_decide_eq_true hconcerns
    have hsees := himpartial.1 _ _ h.sees
    exact ⟨_, _, .change address f, ⟨h.view, h.alone, hsees, fun _ => hnow⟩, hnow, rfl⟩
  | alter f =>
    have hsees := himpartial a _ _ h.sees
    exact ⟨_, _, .alter f, ⟨h.view, h.alone, hsees, fun _ => hnow⟩, hnow, rfl⟩

/-- What concerns another game does nothing to this one. -/
theorem Alike.ignores (hapart : p.Apart home sees) (h : p.Alike sees a s s₀)
    (himpartial : command.Impartial sees) (hconcerns : command.concerns a = false)
    (hdoes : p.Does s command more s') :
    p.Alike sees a s' s₀ ∧ s'.now = s.now ∧ sightsOf a more = [] := by
  cases hdoes with
  | pass | alter => exact nomatch hconcerns
  | change address f =>
    have hne : a ≠ address := fun ha => of_decide_eq_false hconcerns ha.symm
    have hsees := himpartial.2 a s.world hne
    refine ⟨⟨h.view, h.alone, hsees.trans h.sees, fun hstopped => ?_⟩, rfl, rfl⟩
    exact h.now ((hapart.stopped hsees).symm.trans hstopped)
  | track watcher =>
    have hne : a ≠ watcher.address := fun ha => of_decide_eq_false hconcerns ha.symm
    refine ⟨⟨(Schedule.view_track_of_ne hne).trans h.view, h.alone, h.sees, h.now⟩, rfl, ?_⟩
    split
    · exact sightsOf_of_ne hne
    · rfl

/-- What is seen of a game is what is seen of it alone. -/
theorem Chronicle.alone (hperiod : p.period ≠ 0) (hapart : p.Apart home sees)
    (h : p.Chronicle world script seen s)
    (hscript : ∀ c ∈ script, c.Homely home ∧ c.Impartial sees)
    (hsees : sees a world = sees a world') :
    ∃ seen₀ s₀, p.Chronicle world' (concerning a script) seen₀ s₀ ∧ p.Alike sees a s s₀ ∧
      s.now = s₀.now ∧ sightsOf a seen = sightsOf a seen₀ := by
  induction h with
  | start => exact ⟨_, _, .start, ⟨rfl, List.forall_mem_nil _, hsees, fun _ => rfl⟩, rfl, rfl⟩
  | @snoc script seen more s s' command h hdoes ih =>
    rw [List.forall_mem_append, List.forall_mem_singleton] at hscript
    obtain ⟨hscript, -, himpartial⟩ := hscript
    obtain ⟨seen₀, s₀, h₀, halike, hnow, hseen⟩ := ih hscript
    unfold concerning at h₀ ⊢
    rw [List.filter_append, sightsOf_append]
    cases hconcerns : command.concerns a with
    | true =>
      have htimed := h.timed hperiod fun c hc => (hscript c hc).1
      have htimed₀ := h₀.timed hperiod fun c hc => (hscript c (List.mem_of_mem_filter hc)).1
      obtain ⟨more₀, s₀', hdoes₀, halike', hnow', hmore⟩ :=
        halike.does hperiod hapart htimed htimed₀ hnow himpartial hconcerns hdoes
      refine ⟨seen₀ ++ more₀, s₀', ?_, halike', hnow', ?_⟩
      · rw [List.filter_cons_of_pos hconcerns, List.filter_nil]
        exact h₀.snoc hdoes₀
      · rw [sightsOf_append, hseen, hmore]
    | false =>
      obtain ⟨halike', hnow', hnothing⟩ := halike.ignores hapart himpartial hconcerns hdoes
      refine ⟨seen₀, s₀, ?_, halike', hnow'.trans hnow, ?_⟩
      · rw [List.filter_cons_of_neg (by rw [hconcerns]; exact Bool.false_ne_true), List.filter_nil,
          List.append_nil]
        exact h₀
      · rw [hnothing, List.append_nil, hseen]

end Polling

namespace Sample

/-! ## A game whose ticks never end, and one whose second tick takes long -/

structure Counts where
  /-- How many questions were asked in the ticks of a game. -/
  asked : Address → Nat
  signal : Bool

/-- The node lags behind. -/
def lagging : (q : Watch.Ask Address) → Watch.Reply Address q
  | .validate head => .error (Cause.notInSync head 0)
  | .fetch _ => none
  | .read .. | .submit .. => .error Cause.cancelled
  | .now => 0
  | .stopping | .pause .. => false
  | .notify _ => ()

def hanging : Address := .filled 1

def counted : Polling Address Counts where
  period := 12000
  tick := Watcher.tick
  answer game q s := (lagging q, { s with asked := fun a => s.asked a + if a = game then 1 else 0 })
  delay game q s := match q with
    | .validate _ =>
      if game = hanging then none else some (if s.asked game = 2 then 20000 else 500)
    | _ => some 0
  stopped s := s.signal

def Counts.stop (s : Counts) : Counts := { s with signal := true }

def seen (a : Address) (s : Counts) : Nat × Bool := (s.asked a, s.signal)

end Sample

end Watchtower
