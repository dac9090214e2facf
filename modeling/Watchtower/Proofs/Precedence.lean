import Watchtower.Proofs.Challenge

/-!
# What goes before what in a tick

A game that is over is left alone; open challenges are settled first; a game whose clock has run out
is ended; one that a challenge has succeeded against is left at that; and only then are outputs
looked at.

* `x.BesideCache env s a trace` : in `env`, with the nodes at `s`, the work `x` makes the exchanges of
  `trace` and ends with `a`, from any cache, which it leaves as it is;
* `i.prelude env succeeded` : the exchanges of a tick before outputs are looked at;
* `act_precedence` : which actions a tick comes to, in which order and on what condition. If it ends
  the game, or a challenge has succeeded, the prelude is all that there is to it.
-/

namespace Watchtower

open Work

section
variable {γ σ α β : Type} {env : Surroundings γ σ} {i : Inspector γ} {cache cache' : OutputCache}
  {s s' : σ} {actions signalled : List Game.Action} {n : Nat}

/-! ## Work beside the cache -/

namespace Work

variable {x : Work γ α} {f : α → Work γ β} {a : α} {b : β} {trace trace' : List (Exchange (Watch γ))}

def BesideCache (env : Surroundings γ σ) (x : Work γ α) (s : σ) (a : α)
    (trace : List (Exchange (Watch γ))) : Prop :=
  ∀ cache, x.Gives env cache s a cache s ∧ (x cache).exchanges env.answer s = trace

theorem besideCache_pure : (pure a : Work γ α).BesideCache env s a [] :=
  fun _ => ⟨rfl, rfl⟩

theorem besideCache_now : (ask .now).BesideCache env s env.clock [⟨.now, env.clock⟩] :=
  fun _ => ⟨rfl, rfl⟩

theorem besideCache_read {game : γ} {what : Read} {v : what.Value γ}
    (h : env.chain game what = .ok v) :
    (read game what).BesideCache env s v [⟨.read game what, .ok v⟩] := by
  intro cache
  refine ⟨gives_read_iff.mpr ⟨h, rfl, rfl⟩, ?_⟩
  change ⟨.read game what, env.chain game what⟩ ::
    (((ofExcept (env.chain game what) : Work γ _) cache).exchanges env.answer s) = _
  rw [h]
  rfl

theorem BesideCache.bind (h : x.BesideCache env s a trace) (hf : (f a).BesideCache env s b trace') :
    (x >>= f).BesideCache env s b (trace ++ trace') := by
  intro cache
  obtain ⟨hx, hfirst⟩ := h cache
  obtain ⟨hb, hsecond⟩ := hf cache
  refine ⟨gives_bind_iff.mpr ⟨a, cache, s, hx, hb⟩, ?_⟩
  rw [bind_apply, Program.exchanges_bind, show (x cache).run env.answer s = _ from hx, hfirst]
  exact congrArg (trace ++ ·) hsecond

theorem besideCache_read_bind {game : γ} {what : Read} {v : what.Value γ}
    {f : what.Value γ → Work γ β} (h : env.chain game what = .ok v)
    (hf : (f v).BesideCache env s b trace) :
    (read game what >>= f).BesideCache env s b (⟨.read game what, .ok v⟩ :: trace) :=
  (besideCache_read h).bind hf

end Work

/-- A time stops at the largest there is. -/
theorem Game.Window.isResolvable_iff (w : Window) (now : UInt64) : w.isResolvable now = true ↔
    min (w.createdAt.toNat + w.clockDuration.toNat) (UInt64.size - 1) ≤ now.toNat := by
  unfold isResolvable resolvableAt
  rw [decide_eq_true_eq, UInt64.le_iff_toNat_le, toNat_satAdd]

namespace Inspector

/-! ## The parts of the prelude -/

/-- What is asked in order to settle challenges. -/
def settlementExchanges (env : Surroundings γ σ) (i : Inspector γ) (succeeded : Bool) :
    List (Exchange (Watch γ)) :=
  if succeeded then []
  else [⟨.read i.game .canResolveClaim, env.chain i.game .canResolveClaim⟩]

/-- What is asked in order to end the game. -/
def endsExchanges (env : Surroundings γ σ) (i : Inspector γ) : List (Exchange (Watch γ)) :=
  ⟨.now, env.clock⟩ ::
    if i.window.isResolvable env.clock then
      [⟨.read i.game .canResolve, env.chain i.game .canResolve⟩]
    else []

/-- What is asked in a tick on a game in progress before any output is looked at. -/
def prelude (env : Surroundings γ σ) (i : Inspector γ) (succeeded : Bool) :
    List (Exchange (Watch γ)) :=
  ⟨.read i.game .status, .ok .inProgress⟩ :: ⟨.read i.game .challengeSuccess, .ok succeeded⟩ ::
    (i.settlementExchanges env succeeded ++ i.endsExchanges env)

theorem besideCache_settlement {succeeded : Bool} {settling : List Game.Action}
    (hg : (i.settlement succeeded).Gives env cache s settling cache' s') :
    (i.settlement succeeded).BesideCache env s settling (i.settlementExchanges env succeeded) := by
  cases succeeded with
  | true =>
    obtain ⟨rfl, -, -⟩ := gives_pure_iff.mp hg
    exact besideCache_pure
  | false =>
    obtain ⟨settles, hsettles, hg⟩ := gives_read_bind_iff.mp hg
    obtain ⟨rfl, -, -⟩ := gives_pure_iff.mp hg
    unfold settlementExchanges
    rw [if_neg Bool.false_ne_true, hsettles]
    exact besideCache_read_bind hsettles besideCache_pure

theorem settling_cases {succeeded : Bool} {settling : List Game.Action}
    (hg : (i.settlement succeeded).Gives env cache s settling cache' s') :
    (settling = [] ∨ settling = [.resolveClaim]) ∧
      (.resolveClaim ∈ settling ↔
        succeeded = false ∧ env.chain i.game .canResolveClaim = .ok true) := by
  cases succeeded with
  | true =>
    obtain ⟨rfl, -, -⟩ := gives_pure_iff.mp hg
    simp
  | false =>
    obtain ⟨settles, hsettles, hg⟩ := gives_read_bind_iff.mp hg
    obtain ⟨rfl, -, -⟩ := gives_pure_iff.mp hg
    rw [hsettles]
    cases settles <;> simp

theorem besideCache_ends {ends : Bool} (hg : i.ends.Gives env cache s ends cache' s') :
    i.ends.BesideCache env s ends (i.endsExchanges env) := by
  replace hg := gives_now_bind_iff.mp hg
  unfold endsExchanges
  split at hg
  · next hresolvable =>
    obtain ⟨hends, -, -⟩ := gives_read_iff.mp hg
    rw [if_pos hresolvable, hends]
    refine besideCache_now.bind ?_
    rw [if_pos hresolvable]
    exact besideCache_read hends
  · next hearly =>
    obtain ⟨rfl, -, -⟩ := gives_pure_iff.mp hg
    rw [if_neg hearly]
    refine besideCache_now.bind ?_
    rw [if_neg hearly]
    exact besideCache_pure

theorem ends_iff {ends : Bool} (hg : i.ends.Gives env cache s ends cache' s') :
    ends = true ↔ i.window.isResolvable env.clock = true ∧ env.chain i.game .canResolve = .ok true := by
  replace hg := gives_now_bind_iff.mp hg
  split at hg
  · next hresolvable =>
    obtain ⟨hends, -, -⟩ := gives_read_iff.mp hg
    rw [hends, Except.ok.injEq, and_iff_right hresolvable]
  · next hearly =>
    obtain ⟨rfl, -, -⟩ := gives_pure_iff.mp hg
    exact ⟨fun h => absurd h Bool.false_ne_true, fun h => absurd h.1 hearly⟩

theorem Signals.signalled_cases (h : Signals env i cache s signalled n) :
    signalled = [] ∨ ∃ index, signalled = [.challenge index] := by
  cases h with
  | clean | again | missed => exact .inl rfl
  | @inTime index _ _ _ _ _ sound =>
    cases sound with
    | false => exact .inl rfl
    | true => exact .inr ⟨index, rfl⟩

/-! ## A tick that comes to no inspection -/

theorem besideCache_act {succeeded ends : Bool} {settling : List Game.Action}
    (hstatus : env.chain i.game .status = .ok .inProgress)
    (hsucceeded : env.chain i.game .challengeSuccess = .ok succeeded)
    (hsettling : (i.settlement succeeded).Gives env cache s settling cache s)
    (hends : i.ends.Gives env cache s ends cache s)
    (hrest : Work.BesideCache env (do
      if ends then return settling ++ [.resolve]
      if succeeded then return settling
      return settling ++ (← i.signal)) s actions []) :
    i.act.BesideCache env s actions (i.prelude env succeeded) := by
  unfold act
  refine besideCache_read_bind hstatus ?_
  rw [if_neg (not_not_intro rfl)]
  refine besideCache_read_bind hsucceeded ((besideCache_settlement hsettling).bind ?_)
  rw [← List.append_nil (i.endsExchanges env)]
  exact (besideCache_ends hends).bind hrest

end Inspector

open Inspector in
/-- A tick that does not fail. On a game that is over it comes to nothing, and asks for nothing but
the status. On one in progress the settlement comes first, and after it at most one more action, to
end the game or to challenge a claim; and each of the first two is there exactly if it can go through.
A tick that ends the game, and one that finds that a challenge has succeeded, looks at no output: it
asks what belongs to the prelude, and leaves the cache alone. -/
theorem act_precedence (hg : i.act.Gives env cache s actions cache' s') :
    ∃ status, env.chain i.game .status = .ok status ∧
      (status ≠ .inProgress → actions = [] ∧
        i.act.BesideCache env s actions [⟨.read i.game .status, .ok status⟩]) ∧
      (status = .inProgress → ∃ succeeded settling ending,
        env.chain i.game .challengeSuccess = .ok succeeded ∧ actions = settling ++ ending ∧
        (settling = [] ∨ settling = [.resolveClaim]) ∧
        (ending = [] ∨ ending = [.resolve] ∨ ∃ index, ending = [.challenge index]) ∧
        (.resolveClaim ∈ actions ↔
          succeeded = false ∧ env.chain i.game .canResolveClaim = .ok true) ∧
        (.resolve ∈ actions ↔
          min (i.window.createdAt.toNat + i.window.clockDuration.toNat) (UInt64.size - 1) ≤
            env.clock.toNat ∧ env.chain i.game .canResolve = .ok true) ∧
        (.resolve ∈ actions ∨ succeeded = true →
          i.act.BesideCache env s actions (i.prelude env succeeded)) ∧
        (succeeded = true → ∀ index, .challenge index ∉ actions)) := by
  simp only [← i.window.isResolvable_iff]
  have hacts := Acts.of_gives hg
  generalize i.act.errors env cache s = n at hacts
  cases hacts with
  | @finished status hstatus hne =>
    refine ⟨status, hstatus, fun _ => ⟨rfl, ?_⟩, fun h => absurd h hne⟩
    unfold act
    refine besideCache_read_bind hstatus ?_
    rw [if_pos hne]
    exact besideCache_pure
  | @ended succeeded settling hstatus hsucceeded hsettling hends =>
    refine ⟨.inProgress, hstatus, fun h => absurd rfl h, fun _ => ?_⟩
    obtain ⟨hcases, hsettles⟩ := settling_cases hsettling
    have hbeside := besideCache_act hstatus hsucceeded hsettling hends besideCache_pure
    refine ⟨succeeded, settling, [.resolve], hsucceeded, rfl, hcases, .inr (.inl rfl), ?_, ?_,
      fun _ => hbeside, ?_⟩
    · rw [← hsettles]
      simp
    · rw [← ends_iff hends]
      simp
    · rcases hcases with rfl | rfl <;> simp
  | lost hstatus hsucceeded hsettling hends =>
    refine ⟨.inProgress, hstatus, fun h => absurd rfl h, fun _ => ?_⟩
    obtain ⟨hcases, hsettles⟩ := settling_cases hsettling
    have hbeside := besideCache_act hstatus hsucceeded hsettling hends besideCache_pure
    refine ⟨true, actions, [], hsucceeded, (List.append_nil _).symm, hcases, .inl rfl, hsettles, ?_,
      fun _ => hbeside, ?_⟩
    · rw [← ends_iff hends]
      rcases hcases with rfl | rfl <;> simp
    · rcases hcases with rfl | rfl <;> simp
  | @goesOn settling signalled n hstatus hsucceeded hsettling hends hsignals =>
    refine ⟨.inProgress, hstatus, fun h => absurd rfl h, fun _ => ?_⟩
    obtain ⟨hcases, hsettles⟩ := settling_cases hsettling
    have hresolve := resolve_not_mem_append hsettling hsignals
    refine ⟨false, settling, signalled, hsucceeded, rfl, hcases, ?_, ?_, ?_, ?_, nofun⟩
    · exact hsignals.signalled_cases.imp_right .inr
    · rw [← hsettles]
      rcases hsignals.signalled_cases with rfl | ⟨index, rfl⟩ <;> simp
    · rw [← ends_iff hends]
      exact ⟨fun h => absurd h hresolve, fun h => absurd h Bool.false_ne_true⟩
    · rintro (h | h)
      · exact absurd h hresolve
      · exact absurd h Bool.false_ne_true

end

namespace Sample

/-! ## A game whose clock has run out -/

/-- A challenge can be settled, and the game be ended. -/
def endable : Surroundings Unit Unit where
  chain game what := match what with
    | .canResolveClaim | .canResolve => .ok true
    | what => chain .zero .zero game what
  clock := 120
  node := node

end Sample

open Sample in
/-- The game is settled and ended, whatever is cached, and the cache stays as it is. -/
theorem act_precedence_sample :
    inspector.act.BesideCache endable () [.resolveClaim, .resolve] (inspector.prelude endable false) := by
  have hg : inspector.act.Gives endable Sample.cache () [.resolveClaim, .resolve] Sample.cache () :=
    rfl
  obtain ⟨status, hstatus, -, hgoes⟩ := act_precedence hg
  obtain rfl := Except.ok.inj hstatus
  obtain ⟨succeeded, _, _, hsucceeded, -, -, -, -, -, hbeside, -⟩ := hgoes rfl
  obtain rfl := Except.ok.inj hsucceeded
  exact hbeside (.inl (by simp))

end Watchtower
