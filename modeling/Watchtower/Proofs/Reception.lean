import Watchtower.Live
import Watchtower.Proofs.Equipment
import Watchtower.Proofs.Remainder
import Watchtower.Proofs.Traces

/-!
# What becomes of a found game

A watcher is made for the game, and the loop over tracked games is asked to take it if the game is
in progress. Whatever goes wrong is reported once, in the words for where the game was found.

* `Prepares settings factory game trace result` : with the exchanges of `trace` the watcher is made,
  or not; `Prepares.made` : one that is made is of the game;
* `Reports origin fault part rest` : a fault is being reported, or has been;
* `Receives settings factory origin game trace rest` : how far looking after a game has come;
* `receives_of_leaves` : it goes no other way;
* `handedOver trace` : the watchers that the loop has taken, at most one for each game.
-/

namespace Watchtower.Live

open Program

variable {settings : Settings} {factory game : Address} {origin : Discovery.Origin}
  {trace part : List (Exchange Live)} {rest : Program Live Unit} {fault : Fault}
  {watcher : Watcher Contract}

/-! ## The watcher -/

/-- A question that has nothing to do with the search or with the loop. -/
def OfReading : Live.Ask → Prop
  | .chain _ | .watch _ => True
  | .search _ | .handOver _ => False

theorem asks_inquire {α : Type} (x : Inquiry α) : (inquire x).Asks OfReading :=
  asks_handle (fun q => show (Live.ask (.chain q)).Asks OfReading from
    ⟨trivial, fun _ => trivial⟩) x.run

theorem asks_answer (q : Watch.Ask Contract) : (answer q).Asks OfReading := by
  cases q with
  | read game what => exact asks_inquire _
  | validate head => exact asks_inquire _
  | submit game action => exact asks_inquire _
  | _ => exact ⟨trivial, fun _ => trivial⟩

theorem asks_prepare (settings : Settings) (factory game : Address) :
    (prepare settings factory game).Asks OfReading := by
  refine (asks_inquire _).bind fun bound => ?_
  cases bound with
  | error fault => trivial
  | ok contract => exact asks_handle asks_answer _

def Prepares (settings : Settings) (factory game : Address) (trace : List (Exchange Live))
    (result : Except Fault (Watcher Contract)) : Prop :=
  (prepare settings factory game).Yields trace result

/-- A contract is bound as the one that was asked for. -/
theorem bound {contract : Contract} (h : (inquire (Contract.bind game factory)).Yields trace
    (.ok contract)) : contract = ⟨game, factory⟩ := by
  obtain ⟨outer, hbind, -⟩ := yields_handle h
  unfold Contract.bind at hbind
  rw [ExceptT.run_bind] at hbind
  obtain ⟨version, first, second, -, -, hchecked⟩ := Program.yields_bind_iff.mp hbind
  cases version with
  | error fault => exact nomatch (yields_done_iff.mp hchecked).2
  | ok version =>
    dsimp only at hchecked
    split at hchecked
    · exact Except.ok.inj (yields_done_iff.mp hchecked).2
    · exact nomatch (yields_done_iff.mp hchecked).2

theorem Prepares.made (h : Prepares settings factory game trace (.ok watcher)) :
    watcher.game = ⟨game, factory⟩ ∧ watcher.address = game := by
  obtain ⟨contract, first, second, -, hbound, hmade⟩ := Program.yields_bind_iff.mp h
  cases contract with
  | error fault => exact nomatch (yields_done_iff.mp hmade).2
  | ok contract =>
    obtain rfl := bound hbound
    obtain ⟨outer, hof, -⟩ := yields_handle hmade
    have hmeets := @Watcher.meets_of Contract (fun _ _ => True) settings ⟨game, factory⟩ game
    obtain ⟨hgame, haddress, -⟩ := hmeets.of_yields hof (fun _ _ => trivial) watcher rfl
    exact ⟨hgame, haddress⟩

/-! ## What is done with it -/

inductive Reports (origin : Discovery.Origin) (fault : Fault) :
    List (Exchange Live) → Program Live Unit → Prop
  | now : Reports origin fault [] (report origin fault)
  | reported : Reports origin fault [⟨.watch (.notify (origin.failure fault)), ()⟩] (.done ())

inductive Receives (settings : Settings) (factory : Address) (origin : Discovery.Origin)
    (game : Address) : List (Exchange Live) → Program Live Unit → Prop
  | preparing {trace : List (Exchange Live)} {rest : Program Live Unit}
      (hasked : ∀ e ∈ trace, OfReading e.ask) (hgoes : rest ≠ .done ())
      (hnext : ∀ q next, rest = .ask q next → OfReading q) :
      Receives settings factory origin game trace rest
  | failed {trace part : List (Exchange Live)} {rest : Program Live Unit} {fault : Fault}
      (h : Prepares settings factory game trace (.error fault))
      (hreports : Reports origin fault part rest) :
      Receives settings factory origin game (trace ++ part) rest
  | resolved {trace : List (Exchange Live)} {watcher : Watcher Contract}
      (h : Prepares settings factory game trace (.ok watcher))
      (hover : watcher.status ≠ .inProgress) :
      Receives settings factory origin game trace (.done ())
  | offering {trace : List (Exchange Live)} {watcher : Watcher Contract}
      (h : Prepares settings factory game trace (.ok watcher))
      (hgoes : watcher.status = .inProgress) (next : Bool → Program Live Unit) :
      Receives settings factory origin game trace (.ask (.handOver watcher) next)
  | taken {trace : List (Exchange Live)} {watcher : Watcher Contract}
      (h : Prepares settings factory game trace (.ok watcher))
      (hgoes : watcher.status = .inProgress) :
      Receives settings factory origin game (trace ++ [⟨.handOver watcher, true⟩]) (.done ())
  | refused {trace part : List (Exchange Live)} {rest : Program Live Unit}
      {watcher : Watcher Contract} (h : Prepares settings factory game trace (.ok watcher))
      (hgoes : watcher.status = .inProgress)
      (hreports : Reports origin Cause.pollingStopped part rest) :
      Receives settings factory origin game (trace ++ ⟨.handOver watcher, false⟩ :: part) rest

theorem reports_of_leaves (h : (report origin fault).Leaves part rest) :
    Reports origin fault part rest := by
  rcases leaves_ask_iff.mp h with ⟨rfl, rfl⟩ | ⟨reply, later, rfl, hdone⟩
  · exact .now
  · obtain ⟨rfl, rfl⟩ := leaves_done_iff.mp hdone
    exact .reported


/-- What is left to do when the watcher is made, or not. -/
def receive (origin : Discovery.Origin) : Except Fault (Watcher Contract) → Program Live Unit
  | .error fault => report origin fault
  | .ok watcher =>
    if watcher.status ≠ .inProgress then .done ()
    else .ask (.handOver watcher) fun taken : Bool =>
      if taken then .done () else report origin Cause.pollingStopped

theorem welcome_eq (settings : Settings) (factory : Address) (origin : Discovery.Origin)
    (game : Address) :
    welcome settings factory origin game = prepare settings factory game >>= receive origin :=
  congrArg (prepare settings factory game >>= ·) (funext fun result => by cases result <;> rfl)

theorem receives_of_receive {result : Except Fault (Watcher Contract)}
    (h : Prepares settings factory game trace result)
    (hrest : (receive origin result).Leaves part rest) :
    Receives settings factory origin game (trace ++ part) rest := by
  cases result with
  | error fault => exact .failed h (reports_of_leaves hrest)
  | ok watcher =>
    dsimp only [receive] at hrest
    split at hrest
    · next hover =>
      obtain ⟨rfl, rfl⟩ := leaves_done_iff.mp hrest
      rw [List.append_nil]
      exact .resolved h hover
    · next hgoes =>
      replace hgoes := Classical.not_not.mp hgoes
      rcases leaves_ask_iff.mp hrest with ⟨rfl, rfl⟩ | ⟨_ | _, later, rfl, hlater⟩
      · rw [List.append_nil]
        exact .offering h hgoes _
      · exact .refused h hgoes (reports_of_leaves hlater)
      · obtain ⟨rfl, rfl⟩ := leaves_done_iff.mp hlater
        exact .taken h hgoes

theorem receives_of_leaves (h : (welcome settings factory origin game).Leaves trace rest) :
    Receives settings factory origin game trace rest := by
  rw [welcome_eq] at h
  rcases leaves_bind_iff.mp h with ⟨m, hm, rfl⟩ | ⟨result, first, second, rfl, hfirst, hsecond⟩
  · obtain ⟨hasked, hnext⟩ := (asks_prepare settings factory game).of_leaves hm
    cases m with
    | done result =>
      rw [done_bind, ← List.append_nil trace]
      exact receives_of_receive (leaves_value_iff.mp hm) (.here _)
    | ask q next =>
      rw [ask_bind]
      refine .preparing hasked nofun fun q' next' heq => ?_
      obtain ⟨rfl, -⟩ := Program.ask.inj heq
      exact hnext.1
    | stuck =>
      rw [stuck_bind]
      exact .preparing hasked nofun fun q next heq => nomatch heq
  · exact receives_of_receive hfirst hsecond

/-! ## Who was handed over -/

def handedOver (trace : List (Exchange Live)) : List (Watcher Contract) :=
  trace.filterMap fun
    | ⟨.handOver watcher, true⟩ => some watcher
    | _ => none

theorem handedOver_append (first second : List (Exchange Live)) :
    handedOver (first ++ second) = handedOver first ++ handedOver second :=
  List.filterMap_append

theorem handedOver_of_reading (h : ∀ e ∈ trace, OfReading e.ask) : handedOver trace = [] := by
  refine List.filterMap_eq_nil_iff.mpr fun e he => ?_
  have hreading := h e he
  obtain ⟨q, reply⟩ := e
  cases q with
  | handOver watcher => exact hreading.elim
  | _ => rfl

theorem Prepares.handedOver_eq {result : Except Fault (Watcher Contract)}
    (h : Prepares settings factory game trace result) : handedOver trace = [] :=
  handedOver_of_reading ((asks_prepare settings factory game).of_yields h)

theorem Reports.handedOver_eq (h : Reports origin fault part rest) : handedOver part = [] := by
  cases h <;> rfl

/-- At most one watcher is handed over, of the game and in progress, and then nothing is left to
be done. -/
theorem Receives.of_handedOver (h : Receives settings factory origin game trace rest)
    (hmem : watcher ∈ handedOver trace) : handedOver trace = [watcher] ∧ rest = .done () ∧
      watcher.status = .inProgress ∧ watcher.game = ⟨game, factory⟩ ∧ watcher.address = game := by
  cases h with
  | preparing hasked =>
    rw [handedOver_of_reading hasked] at hmem
    exact absurd hmem List.not_mem_nil
  | failed h hreports =>
    rw [handedOver_append, h.handedOver_eq, hreports.handedOver_eq] at hmem
    exact absurd hmem List.not_mem_nil
  | resolved h =>
    rw [h.handedOver_eq] at hmem
    exact absurd hmem List.not_mem_nil
  | offering h =>
    rw [h.handedOver_eq] at hmem
    exact absurd hmem List.not_mem_nil
  | taken h hgoes =>
    rw [handedOver_append, h.handedOver_eq] at hmem ⊢
    obtain rfl := List.mem_singleton.mp hmem
    exact ⟨rfl, rfl, hgoes, h.made⟩
  | @refused _ part _ watcher h hgoes hreports =>
    have hnone : handedOver (⟨.handOver watcher, false⟩ :: part) = [] := hreports.handedOver_eq
    rw [handedOver_append, h.handedOver_eq, hnone] at hmem
    exact absurd hmem List.not_mem_nil

end Watchtower.Live
