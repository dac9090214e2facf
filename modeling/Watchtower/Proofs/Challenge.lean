import Watchtower.Proofs.Finding
import Watchtower.Proofs.Tick

/-!
# When a challenge is signalled, and on what evidence

* `Reports` : a tick gets as far as the detection, and that reports a claim not yet challenged;
* `Ticks` : ticks of one inspector one after another. Between them the surroundings may change in
  any way; the cache is handed on, also by a tick that fails;
* `ticks_guarded` : in every tick of a run that does not fail, a challenge is signalled exactly if
  all guards let it pass, and an error is reported, one, exactly if only the deadline does not.
-/

namespace Watchtower

open Work OutputCache

variable {γ σ : Type} {env : Surroundings γ σ} {i : Inspector γ} {cache cache' : OutputCache}
  {s s' : σ} {actions signalled : List Game.Action} {n : Nat}

namespace Inspector

theorem Signals.challenge_mem_iff (h : Signals env i cache s signalled n) (index : UInt64) :
    .challenge index ∈ signalled ↔ ∃ c t, i.detect.Gives env cache s (some index) c t ∧
      env.chain i.game (.challenged index) = .ok false ∧ i.window.hasPassed env.clock = false ∧
      ∃ parent c' t', env.chain i.game .parent = .ok parent ∧
        (i.ancestorsSound i.rounds parent).Gives env c t true c' t' := by
  cases h with
  | clean hdetect =>
    refine ⟨fun h => (nomatch h), fun ⟨c, t, hd, _⟩ => ?_⟩
    exact nomatch (hdetect.unique hd).1
  | again hdetect hchallenged =>
    refine ⟨fun h => (nomatch h), fun ⟨c, t, hd, hch, _⟩ => ?_⟩
    obtain rfl := Option.some.inj (hdetect.unique hd).1
    exact nomatch hchallenged.symm.trans hch
  | missed hdetect hchallenged hlate =>
    refine ⟨fun h => (nomatch h), fun ⟨c, t, hd, hch, hl, _⟩ => ?_⟩
    exact nomatch hlate.symm.trans hl
  | @inTime found c c' t t' parent sound hdetect hchallenged hlate hparent hsound =>
    constructor
    · intro hm
      cases sound with
      | false => exact nomatch hm
      | true =>
        obtain rfl : index = found := by simpa using hm
        exact ⟨c, t, hdetect, hchallenged, hlate, parent, c', t', hparent, hsound⟩
    · rintro ⟨c₂, t₂, hd, -, -, parent₂, c₃, t₃, hp, ha⟩
      obtain ⟨hi, rfl, rfl⟩ := hdetect.unique hd
      obtain rfl := Option.some.inj hi
      obtain rfl := Except.ok.inj (hparent.symm.trans hp)
      obtain rfl := (hsound.unique ha).1
      exact List.mem_singleton_self _

/-- Past the deadline a fault is reported as an error, and nothing else is. -/
theorem Signals.missed_cases (h : Signals env i cache s signalled n) :
    (∃ index c t, i.detect.Gives env cache s (some index) c t ∧
      env.chain i.game (.challenged index) = .ok false ∧ i.window.hasPassed env.clock = true) ∧
      n = 1 ∨
    (¬ ∃ index c t, i.detect.Gives env cache s (some index) c t ∧
      env.chain i.game (.challenged index) = .ok false ∧ i.window.hasPassed env.clock = true) ∧
      n = 0 := by
  cases h with
  | clean hdetect =>
    refine .inr ⟨fun ⟨index, c, t, hd, _⟩ => ?_, rfl⟩
    exact nomatch (hdetect.unique hd).1
  | again hdetect hchallenged =>
    refine .inr ⟨fun ⟨index, c, t, hd, hch, _⟩ => ?_, rfl⟩
    obtain rfl := Option.some.inj (hdetect.unique hd).1
    exact nomatch hchallenged.symm.trans hch
  | missed hdetect hchallenged hlate => exact .inl ⟨⟨_, _, _, hdetect, hchallenged, hlate⟩, rfl⟩
  | inTime _ _ hlate _ _ =>
    refine .inr ⟨fun ⟨index, c, t, _, _, hl⟩ => ?_, rfl⟩
    exact nomatch hlate.symm.trans hl

theorem Signals.resolve_not_mem (h : Signals env i cache s signalled n) : .resolve ∉ signalled := by
  intro hm
  cases h with
  | clean | again | missed => exact nomatch hm
  | @inTime _ _ _ _ _ _ sound =>
    cases sound with
    | false => exact nomatch hm
    | true => exact nomatch List.mem_singleton.mp hm

/-- The tick comes to a detection, which reports a claim that is not challenged yet; `c` and `t` are
the cache and the nodes after it. -/
structure Reports (env : Surroundings γ σ) (i : Inspector γ) (cache : OutputCache) (s : σ)
    (actions : List Game.Action) (index : UInt64) (c : OutputCache) (t : σ) : Prop where
  inProgress : env.chain i.game .status = .ok .inProgress
  notLost : env.chain i.game .challengeSuccess = .ok false
  notEnded : .resolve ∉ actions
  detected : i.detect.Gives env cache s (some index) c t
  notChallenged : env.chain i.game (.challenged index) = .ok false

theorem resolve_not_mem_append {settling : List Game.Action}
    (hsettling : (i.settlement false).Gives env cache s settling cache s)
    (hsignals : Signals env i cache s signalled n) : .resolve ∉ settling ++ signalled := by
  intro hm
  rcases List.mem_append.mp hm with hm | hm
  · exact nomatch (gives_settlement hsettling).1 _ hm
  · exact hsignals.resolve_not_mem hm

theorem Acts.challenge_mem_iff (h : Acts env i cache s actions n) (index : UInt64) :
    .challenge index ∈ actions ↔ ∃ c t, Reports env i cache s actions index c t ∧
      i.window.hasPassed env.clock = false ∧ ∃ parent c' t',
        env.chain i.game .parent = .ok parent ∧
        (i.ancestorsSound i.rounds parent).Gives env c t true c' t' := by
  -- Settling is no challenge, so only what the signal adds counts.
  have hsettles {b : Bool} {settling : List Game.Action}
      (hsettling : (i.settlement b).Gives env cache s settling cache s) :
      .challenge index ∉ settling := fun hm => nomatch (gives_settlement hsettling).1 _ hm
  cases h with
  | finished hstatus hne =>
    refine ⟨fun hm => (nomatch hm), fun ⟨c, t, hr, _⟩ => ?_⟩
    exact absurd (Except.ok.inj (hstatus.symm.trans hr.inProgress)) hne
  | ended hstatus hsucceeded hsettling hends =>
    refine ⟨fun hm => ?_, fun ⟨c, t, hr, _⟩ => ?_⟩
    · rcases List.mem_append.mp hm with hm | hm
      · exact absurd hm (hsettles hsettling)
      · exact nomatch List.mem_singleton.mp hm
    · exact absurd (List.mem_append_right _ (List.mem_singleton_self _)) hr.notEnded
  | lost hstatus hsucceeded hsettling hends =>
    refine ⟨fun hm => absurd hm (hsettles hsettling), fun ⟨c, t, hr, _⟩ => ?_⟩
    exact nomatch hsucceeded.symm.trans hr.notLost
  | goesOn hstatus hsucceeded hsettling hends hsignals =>
    have hnot := resolve_not_mem_append hsettling hsignals
    rw [List.mem_append, or_iff_right (hsettles hsettling), hsignals.challenge_mem_iff]
    constructor
    · rintro ⟨c, t, hd, hch, hlate, hparent⟩
      exact ⟨c, t, ⟨hstatus, hsucceeded, hnot, hd, hch⟩, hlate, hparent⟩
    · rintro ⟨c, t, hr, hlate, hparent⟩
      exact ⟨c, t, hr.detected, hr.notChallenged, hlate, hparent⟩

theorem Acts.missed_cases (h : Acts env i cache s actions n) :
    (∃ index c t, Reports env i cache s actions index c t ∧
      i.window.hasPassed env.clock = true) ∧ n = 1 ∨
    (¬ ∃ index c t, Reports env i cache s actions index c t ∧
      i.window.hasPassed env.clock = true) ∧ n = 0 := by
  cases h with
  | finished hstatus hne =>
    refine .inr ⟨fun ⟨index, c, t, hr, _⟩ => ?_, rfl⟩
    exact absurd (Except.ok.inj (hstatus.symm.trans hr.inProgress)) hne
  | ended hstatus hsucceeded hsettling hends =>
    refine .inr ⟨fun ⟨index, c, t, hr, _⟩ => ?_, rfl⟩
    exact absurd (List.mem_append_right _ (List.mem_singleton_self _)) hr.notEnded
  | lost hstatus hsucceeded hsettling hends =>
    refine .inr ⟨fun ⟨index, c, t, hr, _⟩ => ?_, rfl⟩
    exact nomatch hsucceeded.symm.trans hr.notLost
  | goesOn hstatus hsucceeded hsettling hends hsignals =>
    have hnot := resolve_not_mem_append hsettling hsignals
    rcases hsignals.missed_cases with ⟨⟨index, c, t, hd, hch, hlate⟩, hn⟩ | ⟨hnone, hn⟩
    · exact .inl ⟨⟨index, c, t, ⟨hstatus, hsucceeded, hnot, hd, hch⟩, hlate⟩, hn⟩
    · refine .inr ⟨fun ⟨index, c, t, hr, hlate⟩ => ?_, hn⟩
      exact hnone ⟨index, c, t, hr.detected, hr.notChallenged, hlate⟩

end Inspector

/-! ## Runs -/

/-- One tick: what it met, and what it ended with. -/
structure Tick (γ σ : Type) where
  env : Surroundings γ σ
  cache : OutputCache
  state : σ
  result : Except Fault (List Game.Action)

inductive Ticks (i : Inspector γ) : OutputCache → List (Tick γ σ) → Prop
  | nil (cache : OutputCache) : Ticks i cache []
  | cons {tick : Tick γ σ} {ticks : List (Tick γ σ)} {cache cache' : OutputCache} {s' : σ}
      (hcache : tick.cache = cache)
      (h : (i.act tick.cache).run tick.env.answer tick.state = some ((tick.result, cache'), s'))
      (rest : Ticks i cache' ticks) : Ticks i cache (tick :: ticks)

theorem Ticks.gives {ticks : List (Tick γ σ)} (h : Ticks i cache ticks) : ∀ tick ∈ ticks,
    ∀ actions, tick.result = .ok actions →
      ∃ cache' s', i.act.Gives tick.env tick.cache tick.state actions cache' s' := by
  induction h with
  | nil => exact fun _ hm => nomatch hm
  | cons _ h rest ih =>
    refine List.forall_mem_cons.mpr ⟨fun actions ha => ?_, ih⟩
    rw [ha] at h
    exact ⟨_, _, h⟩

open Inspector in
/-- A challenge is signalled exactly if every guard lets it pass. If it is but for the deadline that
one does not, nothing is signalled and one error reported; else no error is. -/
theorem ticks_guarded {ticks : List (Tick γ σ)} (h : Ticks i cache ticks) :
    ∀ tick ∈ ticks, ∀ actions, tick.result = .ok actions →
      (∀ index, .challenge index ∈ actions ↔
        ∃ c t, Reports tick.env i tick.cache tick.state actions index c t ∧
          tick.env.clock.toNat ≤
            min (i.window.createdAt.toNat + i.window.detectDuration.toNat) (UInt64.size - 1) ∧
          ∃ parent c' t', tick.env.chain i.game .parent = .ok parent ∧
            (i.ancestorsSound i.rounds parent).Gives tick.env c t true c' t') ∧
      ((∃ index c t, Reports tick.env i tick.cache tick.state actions index c t ∧
          min (i.window.createdAt.toNat + i.window.detectDuration.toNat) (UInt64.size - 1) <
            tick.env.clock.toNat) →
        (∀ index, .challenge index ∉ actions) ∧
          i.act.errors tick.env tick.cache tick.state = 1) ∧
      ((¬ ∃ index c t, Reports tick.env i tick.cache tick.state actions index c t ∧
          min (i.window.createdAt.toNat + i.window.detectDuration.toNat) (UInt64.size - 1) <
            tick.env.clock.toNat) →
        i.act.errors tick.env tick.cache tick.state = 0) := by
  intro tick hm actions hactions
  obtain ⟨cache', s', hg⟩ := h.gives tick hm actions hactions
  have hacts := Acts.of_gives hg
  simp only [← i.window.hasPassed_eq_false_iff, ← Nat.not_le, Bool.not_eq_false]
  refine ⟨hacts.challenge_mem_iff, fun hmissed => ?_, fun hnone => ?_⟩
  · obtain ⟨index, c, t, -, hlate⟩ := id hmissed
    rcases hacts.missed_cases with ⟨-, hn⟩ | ⟨hnone, -⟩
    · refine ⟨fun index hc => ?_, hn⟩
      obtain ⟨_, _, -, hintime, -⟩ := (hacts.challenge_mem_iff index).mp hc
      exact nomatch hlate.symm.trans hintime
    · exact absurd hmissed hnone
  · rcases hacts.missed_cases with ⟨hmissed, -⟩ | ⟨-, hn⟩
    · exact absurd hmissed hnone
    · exact hn

namespace Sample

/-- A tick in time, from a fresh cache. -/
def early : Tick Unit Unit :=
  ⟨surroundings (.ofNat 8) (Game.claimsHash claims) 5, Sample.cache, (), .ok [.challenge 1]⟩

/-- A tick after the deadline, when the output is in the cache. -/
def late : Tick Unit Unit :=
  ⟨surroundings (.ofNat 8) (Game.claimsHash claims) 70, ⟨1, 64, [(1, output 1)]⟩, (), .ok []⟩

theorem ticks_run : Ticks inspector Sample.cache [early, late] :=
  .cons rfl rfl (.cons rfl rfl (.nil _))

theorem reports_late : Inspector.Reports late.env inspector late.cache late.state [] 1 late.cache () :=
  ⟨rfl, rfl, List.not_mem_nil, rfl, rfl⟩

end Sample

open Sample in
theorem ticks_guarded_sample :
    (∃ c t, Inspector.Reports early.env inspector early.cache early.state [.challenge 1] 1 c t) ∧
    inspector.act.errors late.env late.cache late.state = 1 := by
  have h := ticks_guarded ticks_run
  rw [List.forall_mem_cons, List.forall_mem_singleton] at h
  obtain ⟨hearly, hlate⟩ := h
  constructor
  · obtain ⟨c, t, hr, -⟩ := ((hearly _ rfl).1 1).mp (List.mem_singleton_self _)
    exact ⟨c, t, hr⟩
  · exact ((hlate _ rfl).2.1 ⟨1, _, _, reports_late, by decide⟩).2

end Watchtower
