import Watchtower.Proofs.Triple

/-!
# Work in given surroundings

During one tick the chain and the clock stand still; the nodes, the signal to stop and all else may
change with every question.

* `Surroundings γ σ` : a chain, a clock, and nodes with a state of type `σ`;
* `x.Gives env cache s a cache' s'` : in `env`, with the nodes at `s`, the work `x` from `cache` ends
  with the value `a` and leaves `cache'` and `s'`. It is a function of `cache` and `s`
  (`Gives.unique`), and each way to build work has its equivalence;
* `x.Fails env cache s fault cache' s'` : in the same sense, `x` ends with a fault;
* `x.errors env cache s` : how many events at the level of errors such a run reports.
-/

namespace Watchtower

structure Surroundings (γ σ : Type) where
  /-- What a read of a game's contract is answered. -/
  chain : (game : γ) → (what : Read) → Except Fault (what.Value γ)
  clock : UInt64
  /-- What all other questions are answered. -/
  node : (q : Watch.Ask γ) → σ → Watch.Reply γ q × σ

namespace Surroundings

variable {γ σ : Type}

def answer (env : Surroundings γ σ) : (q : Watch.Ask γ) → σ → Watch.Reply γ q × σ
  | .read game what, s => (env.chain game what, s)
  | .now, s => (env.clock, s)
  | .notify _, s => ((), s)
  | q, s => env.node q s

/-- The rely of the chain and the clock as they are. -/
def Agrees (env : Surroundings γ σ) : (Watch γ).Rely
  | .read game what, reply => reply = env.chain game what
  | .now, reply => reply = env.clock
  | _, _ => True

theorem agrees_answer (env : Surroundings γ σ) (q : Watch.Ask γ) (s : σ) :
    env.Agrees q (env.answer q s).1 := by
  cases q <;> first | rfl | trivial

end Surroundings

/-- An event at the level of errors is reported. -/
def Watch.Ask.isError {γ : Type} : Watch.Ask γ → Bool
  | .notify notice => notice.level = .error
  | _ => false

namespace Work

open Program

variable {γ α β σ : Type} {env : Surroundings γ σ} {cache cache' : OutputCache} {s s' : σ}
  {x : Work γ α} {f : α → Work γ β}

def Gives (env : Surroundings γ σ) (x : Work γ α) (cache : OutputCache) (s : σ) (a : α)
    (cache' : OutputCache) (s' : σ) : Prop :=
  (x cache).run env.answer s = some ((.ok a, cache'), s')

theorem Gives.unique {a a₂ : α} {cache₂ : OutputCache} {s₂ : σ}
    (h : x.Gives env cache s a cache' s') (h₂ : x.Gives env cache s a₂ cache₂ s₂) :
    a = a₂ ∧ cache' = cache₂ ∧ s' = s₂ := by
  have he := Option.some.inj (Eq.trans (Eq.symm h) h₂)
  simpa [and_assoc] using he

theorem gives_pure_iff {a b : α} :
    (pure a : Work γ α).Gives env cache s b cache' s' ↔ b = a ∧ cache' = cache ∧ s' = s := by
  unfold Gives
  rw [pure_apply]
  simp only [run, Option.some.injEq, Prod.mk.injEq, Except.ok.injEq, and_assoc]
  constructor
  · rintro ⟨rfl, rfl, rfl⟩
    exact ⟨rfl, rfl, rfl⟩
  · rintro ⟨rfl, rfl, rfl⟩
    exact ⟨rfl, rfl, rfl⟩

theorem not_gives_fail {fault : Fault} {a : α} :
    ¬ (fail fault : Work γ α).Gives env cache s a cache' s' := by
  intro h
  cases h

theorem gives_ofExcept_iff {r : Except Fault α} {a : α} :
    (ofExcept r : Work γ α).Gives env cache s a cache' s' ↔
      r = .ok a ∧ cache' = cache ∧ s' = s := by
  cases r with
  | error fault => simp [ofExcept, not_gives_fail]
  | ok b =>
    rw [ofExcept, gives_pure_iff, Except.ok.injEq]
    exact and_congr_left fun _ => eq_comm

theorem gives_bind_iff {b : β} : (x >>= f).Gives env cache s b cache' s' ↔
    ∃ a c t, x.Gives env cache s a c t ∧ (f a).Gives env c t b cache' s' := by
  unfold Gives
  rw [bind_apply, run_bind]
  cases hx : (x cache).run env.answer s with
  | none => simp
  | some outcome =>
    obtain ⟨⟨fault | a, c⟩, t⟩ := outcome
    · simp [run]
    · simp only [Option.bind_some, Option.some.injEq, Prod.mk.injEq, Except.ok.injEq]
      constructor
      · intro h
        exact ⟨a, c, t, ⟨⟨rfl, rfl⟩, rfl⟩, h⟩
      · rintro ⟨_, _, _, ⟨⟨rfl, rfl⟩, rfl⟩, h⟩
        exact h

theorem gives_read_iff {game : γ} {what : Read} {v : what.Value γ} :
    (read game what).Gives env cache s v cache' s' ↔
      env.chain game what = .ok v ∧ cache' = cache ∧ s' = s := by
  unfold read
  rw [gives_bind_iff]
  simp only [gives_ofExcept_iff]
  constructor
  · rintro ⟨reply, c, t, h, rfl, rfl, rfl⟩
    have he := Option.some.inj h
    simp only [Prod.mk.injEq, Except.ok.injEq] at he
    exact ⟨he.1.1, he.1.2.symm, he.2.symm⟩
  · rintro ⟨h, rfl, rfl⟩
    exact ⟨env.chain game what, cache', s', rfl, h, rfl, rfl⟩

theorem gives_read_bind_iff {game : γ} {what : Read} {f : what.Value γ → Work γ β} {b : β} :
    (read game what >>= f).Gives env cache s b cache' s' ↔
      ∃ v, env.chain game what = .ok v ∧ (f v).Gives env cache s b cache' s' := by
  simp only [gives_bind_iff, gives_read_iff]
  constructor
  · rintro ⟨v, c, t, ⟨hv, rfl, rfl⟩, h⟩
    exact ⟨v, hv, h⟩
  · rintro ⟨v, hv, h⟩
    exact ⟨v, cache, s, ⟨hv, rfl, rfl⟩, h⟩

theorem gives_ofExcept_bind_iff {r : Except Fault α} {b : β} :
    (ofExcept r >>= f).Gives env cache s b cache' s' ↔
      ∃ a, r = .ok a ∧ (f a).Gives env cache s b cache' s' := by
  simp only [gives_bind_iff, gives_ofExcept_iff]
  constructor
  · rintro ⟨a, c, t, ⟨ha, rfl, rfl⟩, h⟩
    exact ⟨a, ha, h⟩
  · rintro ⟨a, ha, h⟩
    exact ⟨a, cache, s, ⟨ha, rfl, rfl⟩, h⟩

theorem gives_now_bind_iff {f : Watch.Reply γ .now → Work γ β} {b : β} :
    (ask .now >>= f).Gives env cache s b cache' s' ↔
      (f env.clock).Gives env cache s b cache' s' := Iff.rfl

theorem gives_notify_bind_iff {notice : Notice} {f : Unit → Work γ β} {b : β} :
    (notify notice >>= f).Gives env cache s b cache' s' ↔ (f ()).Gives env cache s b cache' s' :=
  Iff.rfl

theorem gives_within_iff {context : Context} {a : α} :
    (Work.within context x).Gives env cache s a cache' s' ↔ x.Gives env cache s a cache' s' := by
  unfold Gives Work.within
  rw [run_bind]
  cases hx : (x cache).run env.answer s with
  | none => simp
  | some outcome =>
    obtain ⟨⟨fault | b, c⟩, t⟩ := outcome <;> simp [run]

/-! ## Work that fails -/

def Fails (env : Surroundings γ σ) (x : Work γ α) (cache : OutputCache) (s : σ) (fault : Fault)
    (cache' : OutputCache) (s' : σ) : Prop :=
  (x cache).run env.answer s = some ((.error fault, cache'), s')

section Fails
variable {fault : Fault}

theorem Fails.not_gives {a : α} {c : OutputCache} {t : σ}
    (h : x.Fails env cache s fault cache' s') : ¬ x.Gives env cache s a c t := by
  intro hg
  have he := Option.some.inj (Eq.trans (Eq.symm h) hg)
  cases he

theorem fails_ofExcept : (ofExcept (.error fault) : Work γ α).Fails env cache s fault cache s := rfl

theorem fails_read {game : γ} {what : Read} (h : env.chain game what = .error fault) :
    (read game what).Fails env cache s fault cache s := by
  unfold Fails Work.read
  rw [bind_apply, run_bind]
  change (ofExcept (env.chain game what) cache).run env.answer s = _
  rw [h]
  exact fails_ofExcept

theorem Fails.within {context : Context} (h : x.Fails env cache s fault cache' s') :
    (Work.within context x).Fails env cache s (fault.within context) cache' s' := by
  unfold Fails Work.within at *
  rw [run_bind, h]
  rfl

theorem Fails.bind (h : x.Fails env cache s fault cache' s') :
    (x >>= f).Fails env cache s fault cache' s' := by
  unfold Fails at *
  rw [bind_apply, run_bind, h]
  rfl

/-- A sequence also fails if its second part does. -/
theorem Gives.fails_bind {a : α} {c : OutputCache} {t : σ} (h : x.Gives env cache s a c t)
    (hf : (f a).Fails env c t fault cache' s') : (x >>= f).Fails env cache s fault cache' s' := by
  unfold Gives Fails at *
  rw [bind_apply, run_bind, h]
  exact hf

end Fails

/-! ## From what is upheld and delivered to what is given -/

variable {rely : (Watch γ).Rely}

theorem Upholds.of_run {answer : (q : Watch.Ask γ) → σ → Watch.Reply γ q × σ}
    {post : Except Fault α → OutputCache → Prop} {r : Except Fault α}
    (h : x.Upholds rely cache post)
    (hr : ∀ e ∈ (x cache).exchanges answer s, rely e.ask e.reply)
    (hrun : (x cache).run answer s = some ((r, cache'), s')) : post r cache' := by
  have hp := Meets.of_exchanges h hr
  rw [hrun] at hp
  exact hp

theorem Upholds.of_gives {post : Except Fault α → OutputCache → Prop} {a : α}
    (h : x.Upholds rely cache post) (hr : ∀ q s, rely q (env.answer q s).1)
    (hg : x.Gives env cache s a cache' s') : post (.ok a) cache' :=
  h.of_run (exchanges_rely hr) hg

theorem Delivers.gives {post : α → OutputCache → Prop} (h : x.Delivers rely cache post)
    (hr : ∀ e ∈ (x cache).exchanges env.answer s, rely e.ask e.reply) :
    ∃ a cache' s', x.Gives env cache s a cache' s' ∧ post a cache' := by
  have hp := Meets.of_exchanges h hr
  unfold Gives
  cases hx : (x cache).run env.answer s with
  | none => rw [hx] at hp; exact hp.elim
  | some outcome =>
    rw [hx] at hp
    obtain ⟨⟨fault | a, c⟩, t⟩ := outcome
    · exact hp.elim
    · exact ⟨a, c, t, rfl, hp⟩

/-! ## Reported errors -/

def errors (env : Surroundings γ σ) (x : Work γ α) (cache : OutputCache) (s : σ) : Nat :=
  ((x cache).exchanges env.answer s).countP fun e => e.ask.isError

theorem errors_eq_zero (h : x.Asks fun q => q.isError = false) : x.errors env cache s = 0 := by
  unfold errors
  rw [List.countP_eq_zero]
  intro e he
  rw [(h cache).exchanges s e he]
  exact Bool.false_ne_true

theorem errors_bind {a : α} (h : x.Gives env cache s a cache' s') :
    (x >>= f).errors env cache s = x.errors env cache s + (f a).errors env cache' s' := by
  unfold errors
  rw [bind_apply, exchanges_bind, show (x cache).run env.answer s = _ from h, List.countP_append]

end Work

end Watchtower
