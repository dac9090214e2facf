import Watchtower.Proofs.Detection

/-!
# What a tick of the inspector can do

* `Quiet` : work that reports no error, whatever it is answered. All loads and inspections are;
* `Signals` : the ways in which the inspector comes to signal a challenge or not, and how many
  errors it reports on the way (`Signals.of_gives`);
* `Acts` : the same of a whole tick (`Acts.of_gives`).
-/

namespace Watchtower

open Work OutputCache

variable {γ σ α β : Type} {env : Surroundings γ σ} {cache cache' : OutputCache} {s s' : σ}

/-! ## Work that reports no error -/

namespace Work

/-- Whatever it is answered, the work reports no error. -/
def Quiet (x : Work γ α) : Prop := x.Asks fun q => q.isError = false

theorem composes_quiet : Composes (γ := γ) fun _ x => x.Quiet :=
  composes_asks (fun _ _ _ => rfl) (fun _ => rfl) rfl

theorem isError_of_ofLoading {q : Watch.Ask γ} (h : q.OfLoading) : q.isError = false := by
  cases q with
  | notify notice => cases notice <;> first | rfl | exact h.elim
  | _ => rfl

theorem quiet_loadOne (block : UInt64) : (loadOne block : Work γ _).Quiet :=
  (asks_loadOne block).imp fun _ => isError_of_ofLoading

theorem quiet_loadRange (rounds : Nat) (range : Game.Range) :
    (loadRange rounds range : Work γ _).Quiet :=
  (asks_loadRange rounds range).imp fun _ => isError_of_ofLoading

theorem Quiet.errors_bind {x : Work γ α} {f : α → Work γ β} {a : α} (hq : x.Quiet)
    (hx : x.Gives env cache s a cache' s') :
    (x >>= f).errors env cache s = (f a).errors env cache' s' := by
  rw [Work.errors_bind hx, errors_eq_zero hq, Nat.zero_add]

theorem errors_read_bind {game : γ} {what : Read} {v : what.Value γ} {f : what.Value γ → Work γ β}
    (h : env.chain game what = .ok v) :
    (read game what >>= f).errors env cache s = (f v).errors env cache s :=
  Quiet.errors_bind (asks_read rfl) (gives_read_iff.mpr ⟨h, rfl, rfl⟩)

theorem Quiet.errors_eq_zero {x : Work γ α} (hq : x.Quiet) : x.errors env cache s = 0 :=
  Work.errors_eq_zero hq

end Work

variable {i : Inspector γ}

/-- A challenge is in time up to the deadline, which does not wrap around. -/
theorem Game.Window.hasPassed_eq_false_iff (w : Window) (now : UInt64) : w.hasPassed now = false ↔
    now.toNat ≤ min (w.createdAt.toNat + w.detectDuration.toNat) (UInt64.size - 1) := by
  unfold hasPassed deadline
  rw [decide_eq_false_iff_not, UInt64.not_lt, UInt64.le_iff_toNat_le, toNat_satAdd]

namespace Inspector

/-! ## To signal a challenge or not -/

inductive Signals (env : Surroundings γ σ) (i : Inspector γ) (cache : OutputCache) (s : σ) :
    List Game.Action → Nat → Prop
  | clean {c : OutputCache} {t : σ} (hdetect : i.detect.Gives env cache s none c t) :
      Signals env i cache s [] 0
  | again {index : UInt64} {c : OutputCache} {t : σ}
      (hdetect : i.detect.Gives env cache s (some index) c t)
      (hchallenged : env.chain i.game (.challenged index) = .ok true) : Signals env i cache s [] 0
  | missed {index : UInt64} {c : OutputCache} {t : σ}
      (hdetect : i.detect.Gives env cache s (some index) c t)
      (hchallenged : env.chain i.game (.challenged index) = .ok false)
      (hlate : i.window.hasPassed env.clock = true) : Signals env i cache s [] 1
  | inTime {index : UInt64} {c c' : OutputCache} {t t' : σ} {parent : Option γ} {sound : Bool}
      (hdetect : i.detect.Gives env cache s (some index) c t)
      (hchallenged : env.chain i.game (.challenged index) = .ok false)
      (hlate : i.window.hasPassed env.clock = false)
      (hparent : env.chain i.game .parent = .ok parent)
      (hsound : (i.ancestorsSound i.rounds parent).Gives env c t sound c' t') :
      Signals env i cache s (if sound then [.challenge index] else []) 0

theorem Signals.of_gives {signalled : List Game.Action}
    (hg : i.signal.Gives env cache s signalled cache' s') :
    Signals env i cache s signalled (i.signal.errors env cache s) := by
  unfold signal at hg ⊢
  rw [gives_bind_iff] at hg
  obtain ⟨finding, c, t, hfinding, hg⟩ := hg
  rw [(composes_quiet.inspect (quiet_loadOne _) (quiet_loadRange _ _)
    fun _ => asks_read rfl).errors_bind hfinding]
  obtain ⟨fault, hdetect, hfinding⟩ := gives_inspect_iff.mp hfinding
  cases fault with
  | none =>
    subst hfinding
    obtain ⟨rfl, -, -⟩ := gives_pure_iff.mp hg
    exact .clean hdetect
  | some index =>
    obtain ⟨challenged, hchallenged, rfl⟩ := hfinding
    cases challenged with
    | true =>
      obtain ⟨rfl, -, -⟩ := gives_pure_iff.mp hg
      exact .again hdetect hchallenged
    | false =>
      cases hlate : i.window.hasPassed env.clock with
      | true =>
        rw [hlate] at hg
        change (notify (.windowMissed index) >>= fun _ => pure []).Gives env c t _ _ _ at hg
        rw [gives_notify_bind_iff] at hg
        obtain ⟨rfl, -, -⟩ := gives_pure_iff.mp hg
        exact .missed hdetect hchallenged hlate
      | false =>
        rw [hlate] at hg
        obtain ⟨parent, hparent, hg⟩ := gives_read_bind_iff.mp hg
        obtain ⟨sound, c', t', hsound, hg⟩ := gives_bind_iff.mp hg
        obtain ⟨rfl, -, -⟩ := gives_pure_iff.mp hg
        have herrors : Work.errors env (do
            let sound ← i.ancestorsSound i.rounds (← read i.game .parent)
            return if sound then [Game.Action.challenge index] else []) c t = 0 := by
          refine Quiet.errors_eq_zero (Asks.bind (asks_read rfl) fun parent => ?_)
          exact (composes_quiet.ancestorsSound quiet_loadOne quiet_loadRange i i.rounds parent).bind
            fun _ => asks_pure _
        refine Eq.mpr (congrArg (Signals env i cache s _) herrors) ?_
        exact .inTime hdetect hchallenged hlate hparent hsound

/-! ## A whole tick -/

/-- To settle challenges nothing is asked but the contract. -/
theorem gives_settlement {succeeded : Bool} {settling : List Game.Action}
    (hg : (i.settlement succeeded).Gives env cache s settling cache' s') :
    (∀ action ∈ settling, action = .resolveClaim) ∧ cache' = cache ∧ s' = s := by
  cases succeeded with
  | true =>
    obtain ⟨rfl, hc, hs⟩ := gives_pure_iff.mp hg
    exact ⟨fun _ ha => (nomatch ha), hc, hs⟩
  | false =>
    obtain ⟨settles, -, hg⟩ := gives_read_bind_iff.mp hg
    obtain ⟨rfl, hc, hs⟩ := gives_pure_iff.mp hg
    refine ⟨fun action ha => ?_, hc, hs⟩
    cases settles with
    | true => exact List.mem_singleton.mp ha
    | false => cases ha

theorem gives_ends {ends : Bool} (hg : i.ends.Gives env cache s ends cache' s') :
    cache' = cache ∧ s' = s := by
  replace hg := gives_now_bind_iff.mp hg
  split at hg
  · exact (gives_read_iff.mp hg).2
  · exact (gives_pure_iff.mp hg).2

inductive Acts (env : Surroundings γ σ) (i : Inspector γ) (cache : OutputCache) (s : σ) :
    List Game.Action → Nat → Prop
  | finished {status : Game.Status} (hstatus : env.chain i.game .status = .ok status)
      (hne : status ≠ .inProgress) : Acts env i cache s [] 0
  | ended {succeeded : Bool} {settling : List Game.Action}
      (hstatus : env.chain i.game .status = .ok .inProgress)
      (hsucceeded : env.chain i.game .challengeSuccess = .ok succeeded)
      (hsettling : (i.settlement succeeded).Gives env cache s settling cache s)
      (hends : i.ends.Gives env cache s true cache s) :
      Acts env i cache s (settling ++ [.resolve]) 0
  | lost {settling : List Game.Action} (hstatus : env.chain i.game .status = .ok .inProgress)
      (hsucceeded : env.chain i.game .challengeSuccess = .ok true)
      (hsettling : (i.settlement true).Gives env cache s settling cache s)
      (hends : i.ends.Gives env cache s false cache s) : Acts env i cache s settling 0
  | goesOn {settling signalled : List Game.Action} {n : Nat}
      (hstatus : env.chain i.game .status = .ok .inProgress)
      (hsucceeded : env.chain i.game .challengeSuccess = .ok false)
      (hsettling : (i.settlement false).Gives env cache s settling cache s)
      (hends : i.ends.Gives env cache s false cache s)
      (hsignals : Signals env i cache s signalled n) :
      Acts env i cache s (settling ++ signalled) n

theorem Acts.of_gives {actions : List Game.Action}
    (hg : i.act.Gives env cache s actions cache' s') :
    Acts env i cache s actions (i.act.errors env cache s) := by
  unfold act at hg ⊢
  rw [gives_read_bind_iff] at hg
  obtain ⟨status, hstatus, hg⟩ := hg
  rw [errors_read_bind hstatus]
  split at hg
  · next hne =>
    rw [if_pos hne]
    obtain ⟨rfl, -, -⟩ := gives_pure_iff.mp hg
    exact .finished hstatus hne
  next heq =>
  rw [if_neg heq]
  obtain rfl := Classical.not_not.mp heq
  rw [gives_read_bind_iff] at hg
  obtain ⟨succeeded, hsucceeded, hg⟩ := hg
  rw [errors_read_bind hsucceeded]
  rw [gives_bind_iff] at hg
  obtain ⟨settling, c, t, hsettling, hg⟩ := hg
  obtain ⟨-, hc, ht⟩ := gives_settlement hsettling
  rw [hc, ht] at hsettling hg
  rw [Quiet.errors_bind (composes_quiet.settlement i succeeded) hsettling]
  rw [gives_bind_iff] at hg
  obtain ⟨ends, c, t, hends, hg⟩ := hg
  obtain ⟨hc, ht⟩ := gives_ends hends
  rw [hc, ht] at hends hg
  rw [Quiet.errors_bind (composes_quiet.ends i) hends]
  cases ends with
  | true =>
    obtain ⟨rfl, -, -⟩ := gives_pure_iff.mp hg
    exact .ended hstatus hsucceeded hsettling hends
  | false =>
    cases succeeded with
    | true =>
      obtain ⟨rfl, -, -⟩ := gives_pure_iff.mp hg
      exact .lost hstatus hsucceeded hsettling hends
    | false =>
      obtain ⟨signalled, c, t, hsignal, hg⟩ := gives_bind_iff.mp hg
      obtain ⟨rfl, rfl, rfl⟩ := gives_pure_iff.mp hg
      have herrors : Work.errors env (do return settling ++ (← i.signal)) cache s =
          i.signal.errors env cache s := errors_bind hsignal
      refine Eq.mpr (congrArg (Acts env i cache s _) herrors) ?_
      exact .goesOn hstatus hsucceeded hsettling hends (.of_gives hsignal)

end Inspector

end Watchtower
