import Watchtower.Proofs.Composition
import Watchtower.Proofs.Traces
import Watchtower.Watcher

/-!
# What a tick of a watcher submits

* `submissions trace` : what is submitted in a trace, to whom, in order; `failures trace` : the
  failures of the inspector that are reported in it;
* `Watcher.Advances w trace status w'` : the ways in which a tick of `w` goes, with the exchanges of
  `trace`, returns `status` and leaves `w'` (`Advances.of_yields`). A watcher is idle; or the node is
  behind; or the inspector does its work, and the status is read anew (`Watcher.Concludes`);
* `Watcher.Passes w trace w'` : the same by what the inspector comes to: it fails, which is reported,
  or comes to actions, which are submitted;
* `submissions_failed`, `submissions_acted` : so a tick submits all that the inspector came to, or it
  reports that the inspector failed and submits nothing.
-/

namespace Watchtower

open Work

variable {γ : Type}

def Watch.Ask.submission? : Watch.Ask γ → Option (Address × Game.Action)
  | .submit address action => some (address, action)
  | _ => none

def Watch.Ask.failure? : Watch.Ask γ → Option Fault
  | .notify (.inspectionFailed fault) => some fault
  | _ => none

/-- What is submitted, to which game and in which order, whatever came of it. -/
def submissions (trace : List (Exchange (Watch γ))) : List (Address × Game.Action) :=
  trace.filterMap fun e => e.ask.submission?

/-- The failures of the inspector that are reported. -/
def failures (trace : List (Exchange (Watch γ))) : List Fault :=
  trace.filterMap fun e => e.ask.failure?

theorem submissions_append (first second : List (Exchange (Watch γ))) :
    submissions (first ++ second) = submissions first ++ submissions second :=
  List.filterMap_append

theorem failures_append (first second : List (Exchange (Watch γ))) :
    failures (first ++ second) = failures first ++ failures second :=
  List.filterMap_append

/-- A question that neither submits anything nor reports that the inspector failed. -/
def Watch.Ask.Silent (q : Watch.Ask γ) : Prop := q.submission? = none ∧ q.failure? = none

theorem nil_of_silent {trace : List (Exchange (Watch γ))} (h : ∀ e ∈ trace, e.ask.Silent) :
    submissions trace = [] ∧ failures trace = [] :=
  ⟨List.filterMap_eq_nil_iff.mpr fun e he => (h e he).1,
    List.filterMap_eq_nil_iff.mpr fun e he => (h e he).2⟩

theorem silent_of_ofLoading (q : Watch.Ask γ) (h : q.OfLoading) : q.Silent := by
  cases q with
  | submit => exact h.elim
  | notify notice => cases notice <;> first | exact ⟨rfl, rfl⟩ | exact h.elim
  | _ => exact ⟨rfl, rfl⟩

/-- The inspector only says what to submit. -/
theorem silent_act (i : Inspector γ) : i.act.Asks Watch.Ask.Silent :=
  (composes_asks (fun _ _ _ => ⟨rfl, rfl⟩) (fun _ => ⟨rfl, rfl⟩) ⟨rfl, rfl⟩).act
    (fun block => (asks_loadOne block).imp silent_of_ofLoading)
    (fun rounds range => (asks_loadRange rounds range).imp silent_of_ofLoading)
    (fun _ _ => asks_read ⟨rfl, rfl⟩) (fun _ => asks_ask ⟨rfl, rfl⟩) i

namespace Watcher

variable {w w' : Watcher γ} {trace : List (Exchange (Watch γ))}

theorem yields_ask_bind_iff {α : Type} {q : Watch.Ask γ}
    {f : Watch.Reply γ q → Program (Watch γ) α} {a : α} :
    (Watch.ask q >>= f).Yields trace a ↔
      ∃ reply rest, trace = ⟨q, reply⟩ :: rest ∧ (f reply).Yields rest a :=
  Program.yields_ask_iff

theorem yields_returned_iff {known status : Game.Status} :
    (Program.done (known, w) : Program (Watch γ) _).Yields trace (status, w') ↔
      trace = [] ∧ status = known ∧ w' = w := by
  rw [Program.yields_done_iff, Prod.mk.injEq]

/-- Every action is submitted, also after one that failed. -/
theorem submissions_perform {address : Address} {actions : List Game.Action}
    (h : (perform (γ := γ) address actions).Yields trace ()) :
    submissions trace = actions.map (fun action => (address, action)) ∧ failures trace = [] := by
  induction actions generalizing trace with
  | nil =>
    obtain ⟨rfl, -⟩ := Program.yields_done_iff.mp h
    exact ⟨rfl, rfl⟩
  | cons action actions ih =>
    obtain ⟨reply, rest, rfl, hrest⟩ := yields_ask_bind_iff.mp h
    clear h
    cases reply with
    | ok _ =>
      obtain ⟨hsubmitted, hfailures⟩ := ih hrest
      exact ⟨congrArg _ hsubmitted, hfailures⟩
    | error fault =>
      obtain ⟨_, rest, rfl, hnext⟩ := yields_ask_bind_iff.mp hrest
      obtain ⟨hsubmitted, hfailures⟩ := ih hnext
      exact ⟨congrArg _ hsubmitted, hfailures⟩

/-! ## After the inspector -/

/-- The status cannot be read, and is what it was; or it is read, and the inspector is kept if the
game goes on. -/
inductive Concludes (w : Watcher γ) (i : Inspector γ) (cache : OutputCache) :
    List (Exchange (Watch γ)) → Game.Status → Watcher γ → Prop
  | unreadable (fault : Fault) (after : List (Exchange (Watch γ))) :
      Concludes w i cache (⟨.read w.game .status, .error fault⟩ :: after) w.status
        { w with active := some (i, cache) }
  | read (status : Game.Status) (after : List (Exchange (Watch γ))) :
      Concludes w i cache (⟨.read w.game .status, .ok status⟩ :: after) status
        { w with status, active := if status = .inProgress then some (i, cache) else none }

theorem Concludes.of_yields {i : Inspector γ} {cache : OutputCache} {status : Game.Status}
    (h : (w.conclude i cache).Yields trace (status, w')) : Concludes w i cache trace status w' := by
  obtain ⟨reply, after, rfl, hafter⟩ := yields_ask_bind_iff.mp h
  cases reply with
  | error fault =>
    obtain ⟨_, _, rfl, hdone⟩ := yields_ask_bind_iff.mp hafter
    obtain ⟨rfl, rfl, rfl⟩ := yields_returned_iff.mp hdone
    exact .unreadable fault _
  | ok known =>
    obtain ⟨_, _, _, rfl, -, hdone⟩ := Program.yields_bind_iff.mp hafter
    obtain ⟨rfl, rfl, rfl⟩ := yields_returned_iff.mp hdone
    exact .read _ _

/-- What is asked when the status has been read. -/
def OfProbe : Watch.Ask γ → Prop
  | .read _ .claimCount | .notify (.claimCountUnreadable _) => True
  | _ => False

/-- What is asked when the inspector is done. -/
def OfFinish : Watch.Ask γ → Prop
  | .read _ .status | .read _ .claimCount => True
  | .notify (.statusUnreadable _) | .notify (.claimCountUnreadable _) => True
  | _ => False

theorem ofFinish_of_ofProbe (q : Watch.Ask γ) (h : OfProbe q) : OfFinish q := by
  cases q with
  | read game what => cases what <;> trivial
  | notify notice => cases notice <;> trivial
  | _ => exact h.elim

theorem asks_probe (game : γ) (status : Game.Status) : (probe game status).Asks OfProbe := by
  unfold probe
  split
  · refine ⟨trivial, fun reply => ?_⟩
    cases reply with
    | ok count => trivial
    | error fault => exact ⟨trivial, fun _ => trivial⟩
  · trivial

theorem asks_conclude (w : Watcher γ) (i : Inspector γ) (cache : OutputCache) :
    (w.conclude i cache).Asks OfFinish := by
  refine ⟨trivial, fun reply => ?_⟩
  cases reply with
  | error fault => exact ⟨trivial, fun _ => trivial⟩
  | ok status => exact ((asks_probe w.game status).imp ofFinish_of_ofProbe).bind fun _ => trivial

/-- The watcher keeps its inspector, with the cache as it is then, unless the game is over. -/
structure Finishes (w : Watcher γ) (i : Inspector γ) (cache : OutputCache)
    (trace : List (Exchange (Watch γ))) (w' : Watcher γ) : Prop where
  asks : ∀ e ∈ trace, OfFinish e.ask
  address : w'.address = w.address
  active : w'.active = some (i, cache) ∨ w'.active = none

theorem Finishes.of_yields {i : Inspector γ} {cache : OutputCache} {status : Game.Status}
    (h : (w.conclude i cache).Yields trace (status, w')) : Finishes w i cache trace w' := by
  have hasks := (asks_conclude w i cache).of_yields h
  cases Concludes.of_yields h with
  | unreadable fault after => exact ⟨hasks, rfl, .inl rfl⟩
  | read status after =>
    refine ⟨hasks, rfl, ?_⟩
    by_cases hgoes : status = .inProgress
    · exact .inl (if_pos hgoes)
    · exact .inr (if_neg hgoes)

theorem silent_of_ofFinish (q : Watch.Ask γ) (h : OfFinish q) : q.Silent := by
  cases q with
  | submit => exact h.elim
  | notify notice => cases notice <;> first | exact ⟨rfl, rfl⟩ | exact h.elim
  | _ => exact ⟨rfl, rfl⟩

/-! ## Whole ticks -/

/-- The ways in which a tick comes to the status that it returns. -/
inductive Advances (w : Watcher γ) : List (Exchange (Watch γ)) → Game.Status → Watcher γ → Prop
  | idle (h : w.active = none) : Advances w [] w.status w
  | behind {i : Inspector γ} {cache : OutputCache} {fault : Fault} (h : w.active = some (i, cache)) :
      Advances w [⟨.validate i.head, .error fault⟩,
        ⟨.notify (if fault.isNotInSync then .nodeBehind fault else .syncCheckFailed fault), ()⟩]
        w.status w
  | acts {i : Inspector γ} {cache c : OutputCache} {acting ending : List (Exchange (Watch γ))}
      {status : Game.Status} {w' : Watcher γ} (h : w.active = some (i, cache))
      (hact : (actOnce w.address i cache).Yields acting c)
      (hend : (w.conclude i c).Yields ending (status, w')) :
      Advances w (⟨.validate i.head, .ok ()⟩ :: (acting ++ ending)) status w'

theorem Advances.of_yields {status : Game.Status} (h : w.progress.Yields trace (status, w')) :
    Advances w trace status w' := by
  unfold progress at h
  cases hactive : w.active with
  | none =>
    rw [hactive] at h
    obtain ⟨rfl, rfl, rfl⟩ := yields_returned_iff.mp h
    exact .idle hactive
  | some equipment =>
    obtain ⟨i, cache⟩ := equipment
    rw [hactive] at h
    obtain ⟨synced, rest, rfl, hrest⟩ := yields_ask_bind_iff.mp h
    cases synced with
    | error fault =>
      obtain ⟨_, _, rfl, hdone⟩ := yields_ask_bind_iff.mp hrest
      obtain ⟨rfl, rfl, rfl⟩ := yields_returned_iff.mp hdone
      exact .behind hactive
    | ok _ =>
      obtain ⟨c, acting, ending, rfl, hact, hend⟩ := Program.yields_bind_iff.mp hrest
      exact .acts hactive hact hend

/-- The same, by what the inspector comes to. -/
inductive Passes (w : Watcher γ) : List (Exchange (Watch γ)) → Watcher γ → Prop
  | idle (h : w.active = none) : Passes w [] w
  | behind {i : Inspector γ} {cache : OutputCache} {fault : Fault} {notice : Notice}
      (h : w.active = some (i, cache)) :
      Passes w [⟨.validate i.head, .error fault⟩, ⟨.notify notice, ()⟩] w
  | failed {i : Inspector γ} {cache c : OutputCache} {fault : Fault}
      {acting finishing : List (Exchange (Watch γ))} {w' : Watcher γ} (h : w.active = some (i, cache))
      (hacting : i.act.Yields cache acting (.error fault) c) (hfinish : Finishes w i c finishing w') :
      Passes w (⟨.validate i.head, .ok ()⟩ ::
        (acting ++ ⟨.notify (.inspectionFailed fault), ()⟩ :: finishing)) w'
  | acted {i : Inspector γ} {cache c : OutputCache} {actions : List Game.Action}
      {acting sending finishing : List (Exchange (Watch γ))} {w' : Watcher γ}
      (h : w.active = some (i, cache)) (hacting : i.act.Yields cache acting (.ok actions) c)
      (hsending : (perform (γ := γ) w.address actions).Yields sending ())
      (hfinish : Finishes w i c finishing w') :
      Passes w (⟨.validate i.head, .ok ()⟩ :: (acting ++ (sending ++ finishing))) w'

theorem Passes.of_yields (h : w.tick.Yields trace w') : Passes w trace w' := by
  obtain ⟨⟨status, w''⟩, _, _, rfl, hprogress, hdone⟩ := Program.yields_bind_iff.mp h
  obtain ⟨rfl, rfl⟩ := Program.yields_done_iff.mp hdone
  rw [List.append_nil]
  cases Advances.of_yields hprogress with
  | idle hidle => exact .idle hidle
  | behind hactive => exact .behind hactive
  | acts hactive hact hend =>
    obtain ⟨⟨fault | actions, c'⟩, acting, after, rfl, hacting, hafter⟩ :=
      Program.yields_bind_iff.mp hact
    · obtain ⟨_, _, rfl, hreported⟩ := yields_ask_bind_iff.mp hafter
      obtain ⟨rfl, rfl⟩ := Program.yields_done_iff.mp hreported
      rw [List.append_assoc]
      exact .failed hactive hacting (.of_yields hend)
    · obtain ⟨_, sending, _, rfl, hsending, hsent⟩ := Program.yields_bind_iff.mp hafter
      obtain ⟨rfl, rfl⟩ := Program.yields_done_iff.mp hsent
      rw [List.append_nil, List.append_assoc]
      exact .acted hactive hacting hsending (.of_yields hend)

section
variable {i : Inspector γ} {cache c : OutputCache} {acting sending finishing : List (Exchange (Watch γ))}
  {head : L1.Head}

/-- If the inspector fails, all that it came to before is lost. -/
theorem submissions_failed {fault : Fault} (hacting : i.act.Yields cache acting (.error fault) c)
    (hfinish : Finishes w i c finishing w') :
    submissions (⟨.validate head, .ok ()⟩ ::
      (acting ++ ⟨.notify (.inspectionFailed fault), ()⟩ :: finishing)) = [] ∧
    failures (⟨.validate head, .ok ()⟩ ::
      (acting ++ ⟨.notify (.inspectionFailed fault), ()⟩ :: finishing)) = [fault] := by
  obtain ⟨hs, hf⟩ := nil_of_silent ((silent_act i).of_yields hacting)
  obtain ⟨hs', hf'⟩ := nil_of_silent fun e he => silent_of_ofFinish e.ask (hfinish.asks e he)
  constructor
  · change submissions (acting ++ ([⟨.notify (.inspectionFailed fault), ()⟩] ++ finishing)) = []
    rw [submissions_append, submissions_append, hs, hs']
    rfl
  · change failures (acting ++ ([⟨.notify (.inspectionFailed fault), ()⟩] ++ finishing)) = [fault]
    rw [failures_append, failures_append, hf, hf']
    rfl

/-- If the inspector comes to actions, they are what is submitted. -/
theorem submissions_acted {actions : List Game.Action}
    (hacting : i.act.Yields cache acting (.ok actions) c)
    (hsending : (perform (γ := γ) w.address actions).Yields sending ())
    (hfinish : Finishes w i c finishing w') :
    submissions (⟨.validate head, .ok ()⟩ :: (acting ++ (sending ++ finishing))) =
      actions.map (fun action => (w.address, action)) ∧
    failures (⟨.validate head, .ok ()⟩ :: (acting ++ (sending ++ finishing))) = [] := by
  obtain ⟨hs, hf⟩ := nil_of_silent ((silent_act i).of_yields hacting)
  obtain ⟨hs', hf'⟩ := nil_of_silent fun e he => silent_of_ofFinish e.ask (hfinish.asks e he)
  obtain ⟨hsent, hunfailed⟩ := submissions_perform hsending
  constructor
  · change submissions (acting ++ (sending ++ finishing)) = _
    rw [submissions_append, submissions_append, hs, hs', hsent, List.append_nil]
    rfl
  · change failures (acting ++ (sending ++ finishing)) = []
    rw [failures_append, failures_append, hf, hf', hunfailed]
    rfl

end

end Watcher

end Watchtower
