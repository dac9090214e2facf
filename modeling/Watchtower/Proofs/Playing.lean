import Watchtower.Proofs.Remainder
import Watchtower.Schedule

/-!
# What the task of a game comes to

A task makes the ticks of its watcher, as long as the game goes on and the signal to stop has not
been given. It stops at every answer that takes time, so it may be left within a tick; what it is
within is lost when the signal comes.

* `p.Plays w v` : ticks lead from `w` to `v`, one after another;
* `p.Playing w task` : the task of `w` has made some ticks, and may be within the next;
* `p.ComesTo w stopped status` : the last status of the watcher whose task `w` began, and whether it
  was the signal to stop that ended it;
* `reached_advance` : how far a program gets until it has to wait; `becomes_go` : what becomes of a
  task when it goes on. It breaks off only if there is no period to tick by.
-/

namespace Watchtower

variable {γ σ : Type} {p : Polling γ σ} {w : Watcher γ} {task : Task γ}
  {prog rest : Program (Watch γ) (Watcher γ)} {progress : Progress γ}

/-! ## How far a program gets -/

/-- It is over, waits with something left to do, or waits for ever. -/
def Progress.ReachedBy (prog : Program (Watch γ) (Watcher γ)) : Progress γ → Prop
  | .ended watcher => ∃ trace, prog.Yields trace watcher
  | .waiting _ rest => rest = .stuck ∨ ∃ trace, prog.Leaves trace rest

theorem Progress.ReachedBy.ask {q : Watch.Ask γ} {reply : Watch.Reply γ q}
    {next : Watch.Reply γ q → Program (Watch γ) (Watcher γ)} (h : progress.ReachedBy (next reply)) :
    progress.ReachedBy (.ask q next : Program (Watch γ) (Watcher γ)) := by
  cases progress with
  | ended watcher => exact h.imp' _ fun _ => .ask
  | waiting delay rest => exact h.imp_right fun h => h.imp' _ fun _ => .ask

/-- What is left of a program gets where the program does. -/
theorem Progress.ReachedBy.of_left (h : progress.ReachedBy rest)
    (hleft : rest = .stuck ∨ ∃ trace, prog.Leaves trace rest) : progress.ReachedBy prog := by
  rcases hleft with rfl | ⟨first, hfirst⟩
  · cases progress with
    | ended watcher =>
      obtain ⟨_, hyields⟩ := h
      exact absurd hyields Program.not_yields_stuck
    | waiting delay rest =>
      exact .inl (h.elim id fun ⟨_, hleaves⟩ => (Program.leaves_stuck_iff.mp hleaves).2)
  · cases progress with
    | ended watcher =>
      obtain ⟨second, hsecond⟩ := h
      exact ⟨_, Program.leaves_value_iff.mp (hfirst.append (Program.leaves_value_iff.mpr hsecond))⟩
    | waiting delay rest => exact h.imp_right fun ⟨_, hsecond⟩ => ⟨_, hfirst.append hsecond⟩

namespace Polling

theorem reached_advance (p : Polling γ σ) (game : γ) (prog : Program (Watch γ) (Watcher γ))
    (s : σ) : (p.advance game prog s).1.ReachedBy prog := by
  induction prog generalizing s with
  | done watcher => exact ⟨[], .done watcher⟩
  | ask q next ih =>
    unfold advance
    split
    · exact (ih _ _).ask
    · exact .inr ⟨_, .ask (.here _)⟩
    · exact .inl rfl
  | stuck => exact .inl rfl

/-! ## Tick after tick -/

inductive Plays (p : Polling γ σ) (w : Watcher γ) : Watcher γ → Prop
  | start : Plays p w w
  | tick {v v' : Watcher γ} {trace : List (Exchange (Watch γ))} (h : Plays p w v)
      (hgoes : v.status = .inProgress) (htick : (p.tick v).Yields trace v') : Plays p w v'

structure Playing (p : Polling γ σ) (w : Watcher γ) (task : Task γ) : Prop where
  plays : p.Plays w task.watcher
  goes : task.watcher.status = .inProgress
  within : ∀ began rest, task.present = some (began, rest) →
    rest = .stuck ∨ ∃ trace, (p.tick task.watcher).Leaves trace rest

inductive ComesTo (p : Polling γ σ) (w : Watcher γ) : Bool → Game.Status → Prop
  | resolved {v : Watcher γ} (h : p.Plays w v) (hover : v.status ≠ .inProgress) :
      ComesTo p w false v.status
  | stopped {v : Watcher γ} (h : p.Plays w v) (hgoes : v.status = .inProgress) :
      ComesTo p w true v.status

theorem playing_start (p : Polling γ σ) (now : Nat) (hgoes : w.status = .inProgress) :
    p.Playing w ⟨w, some now, none⟩ :=
  ⟨.start, hgoes, nofun⟩

/-- What may become of the task of `w`. -/
def Becomes (p : Polling γ σ) (w : Watcher γ) (stopped : Bool) : Outcome γ → Prop
  | .running task => p.Playing w task
  | .ended status => p.ComesTo w stopped status
  | .lost => False

theorem Playing.left (h : p.Playing w task) (now : Nat) :
    (task.present.getD (now, p.tick task.watcher)).2 = .stuck ∨
      ∃ trace, (p.tick task.watcher).Leaves trace
        (task.present.getD (now, p.tick task.watcher)).2 := by
  cases hpresent : task.present with
  | none => exact .inr ⟨[], .here _⟩
  | some present => exact h.within present.1 present.2 hpresent

theorem becomes_go (hperiod : p.period ≠ 0) (h : p.Playing w task) (now : Nat) (s : σ) :
    p.Becomes w (p.stopped s) (p.go now task s).1 := by
  unfold go
  rw [if_neg hperiod]
  cases hstopped : p.stopped s with
  | true => exact .stopped h.plays h.goes
  | false =>
    rw [if_neg Bool.false_ne_true]
    have hleft := h.left now
    generalize task.present.getD (now, p.tick task.watcher) = present at hleft ⊢
    have hreached := (reached_advance p task.watcher.game present.2 s).of_left hleft
    dsimp only
    split
    · next delay rest s' hadvance =>
      rw [hadvance] at hreached
      refine ⟨h.plays, h.goes, fun began later hpresent => ?_⟩
      obtain ⟨-, rfl⟩ := Prod.mk.inj (Option.some.inj hpresent)
      exact hreached
    · next watcher s' hadvance =>
      rw [hadvance] at hreached
      obtain ⟨trace, htick⟩ := hreached
      have hplays := h.plays.tick h.goes htick
      split
      · next hgoes => exact ⟨hplays, hgoes, nofun⟩
      · next hover => exact .resolved hplays hover

end Polling

end Watchtower
