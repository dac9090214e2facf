import Mathlib.Data.List.Infix
import Watchtower.Proofs.Attending
import Watchtower.Proofs.Discovering
import Watchtower.Proofs.Reception

/-!
# From the search to the tasks

The search welcomes games, and each is looked after beside all else. A watcher that is handed over
enters a queue; the loop takes the first in the queue that it has not taken, and has the roster
track it. Tasks go on and end, and the loop takes their results. Who goes on next, and what the
nodes answer, is left open.

* `Live.searches_of_leaves` : what the search asks of nodes and factory amounts to a run of it;
* `Arrival`, `Lobby` : a game that is looked after; the search, the arrivals, the queue, the loop
  and the roster;
* `lobby.Step lobby'`, `Reaches` : what each can do, from the opening on;
* `Consistent` : the invariant;
* `games_taken_in` : every welcomed game is looked after; the watchers of those in progress are
  taken in, in the order of the queue; and at every address one task is started after another.
-/

namespace Watchtower

open Program Tracking

/-! ## The search -/

namespace Live

variable {factory : Address}

def welcomes (trace : List (Exchange Live)) : List (Discovery.Origin × Address) :=
  trace.filterMap fun
    | ⟨.search (.welcome origin game), _⟩ => some (origin, game)
    | _ => none

/-- A question that welcomes no game. -/
def NoWelcome : Live.Ask → Prop
  | .search (.welcome ..) => False
  | _ => True

theorem welcomes_append (first second : List (Exchange Live)) :
    welcomes (first ++ second) = welcomes first ++ welcomes second :=
  List.filterMap_append

theorem welcomes_of_noWelcome {trace : List (Exchange Live)} (h : ∀ e ∈ trace, NoWelcome e.ask) :
    welcomes trace = [] := by
  refine List.filterMap_eq_nil_iff.mpr fun e he => ?_
  have hnone := h e he
  obtain ⟨q, reply⟩ := e
  cases q with
  | search q =>
    cases q with
    | welcome origin game => exact hnone.elim
    | _ => rfl
  | _ => rfl

theorem welcomed_of_noWelcome {q : Discovery.Ask} (hq : NoWelcome (.search q))
    (reply : Discovery.Reply q) : Discovery.welcomed [⟨q, reply⟩] = [] := by
  cases q with
  | welcome origin game => exact hq.elim
  | _ => rfl

theorem noWelcome_of_ofReading (q : Live.Ask) (h : OfReading q) : NoWelcome q := by
  cases q with
  | search q => exact h.elim
  | _ => trivial

theorem asks_survey {q : Discovery.Ask} (hq : NoWelcome (.search q)) (factory : Address) :
    (survey factory q).Asks NoWelcome := by
  cases q with
  | gameCount => exact (asks_inquire _).imp noWelcome_of_ofReading
  | gameAt index => exact (asks_inquire _).imp noWelcome_of_ofReading
  | _ => exact ⟨hq, fun _ => trivial⟩

/-- What is asked for a search amounts to a part of it, with the same games welcomed. -/
theorem searches_of_leaves {α : Type} {search : Program Discovery α} {rest : Program Live α}
    {trace : List (Exchange Live)} (h : (search.handle (survey factory)).Leaves trace rest) :
    ∃ outer left, search.Leaves outer left ∧ Discovery.welcomed outer = welcomes trace := by
  induction search generalizing trace with
  | done a =>
    obtain ⟨rfl, -⟩ := leaves_done_iff.mp h
    exact ⟨[], _, .here _, rfl⟩
  | stuck =>
    obtain ⟨rfl, -⟩ := leaves_stuck_iff.mp h
    exact ⟨[], _, .here _, rfl⟩
  | ask q next ih =>
    by_cases hq : NoWelcome (.search q)
    · have hasks := asks_survey hq factory
      rcases leaves_bind_iff.mp h with ⟨m, hm, rfl⟩ | ⟨reply, first, second, rfl, hfirst, hsecond⟩
      · exact ⟨[], _, .here _, (welcomes_of_noWelcome (hasks.of_leaves hm).1).symm⟩
      · obtain ⟨outer, left, houter, hsame⟩ := ih reply hsecond
        refine ⟨[⟨q, reply⟩] ++ outer, left, .ask houter, ?_⟩
        rw [Discovery.welcomed_append, welcomed_of_noWelcome hq, welcomes_append,
          welcomes_of_noWelcome (hasks.of_yields hfirst), hsame]
    · cases q with
      | welcome origin game =>
        rcases leaves_ask_iff.mp h with ⟨rfl, rfl⟩ | ⟨reply, later, rfl, hlater⟩
        · exact ⟨[], _, .here _, rfl⟩
        · obtain ⟨outer, left, houter, hsame⟩ := ih reply hlater
          exact ⟨_, left, .ask houter, congrArg ((origin, game) :: ·) hsame⟩
      | _ => exact absurd trivial hq

end Live

/-! ## The parties -/

section
variable {σ : Type} {p : Polling Contract σ} {settings : Settings} {factory : Address}
  {gameType : UInt32} {window : UInt64} {events n : Nat}

/-- A found game that is looked after: what has been asked, and what is left to do. -/
structure Arrival where
  origin : Discovery.Origin
  game : Address
  asked : List (Exchange Live)
  rest : Program Live Unit

def Arrival.tag (x : Arrival) : Discovery.Origin × Address := (x.origin, x.game)

structure Lobby where
  /-- What the search has asked. -/
  searched : List (Exchange Live)
  search : Program Live (Except Fault Unit)
  arrivals : List Arrival
  /-- The watchers in the queue, in the order in which they entered it, and with those that were
  taken. -/
  queue : List (Watcher Contract)
  /-- What the loop has asked. -/
  log : List (Exchange (Tracking Contract))
  loop : Program (Tracking Contract) Unit
  history : List (Event Contract)
  roster : Roster (Task Contract)

namespace Lobby

variable {lobby lobby' : Lobby}

def opening (factory : Address) (gameType : UInt32) (window : UInt64) (events n : Nat) : Lobby where
  searched := []
  search := (Discovery.discover gameType window events).run.handle (Live.survey factory)
  arrivals := []
  queue := []
  log := []
  loop := attend n
  history := []
  roster := {}

/-- The search has got an answer. -/
def lookOn (lobby : Lobby) (e : Exchange Live) (rest : Program Live (Except Fault Unit)) : Lobby :=
  { lobby with searched := lobby.searched ++ [e], search := rest }

/-- The search has got an answer, and welcomes a game. -/
def arrive (lobby : Lobby) (settings : Settings) (factory : Address) (origin : Discovery.Origin)
    (game : Address) (rest : Program Live (Except Fault Unit)) : Lobby :=
  let x : Arrival := ⟨origin, game, [], Live.welcome settings factory origin game⟩
  { lobby with
    searched := lobby.searched ++ [⟨.search (.welcome origin game), ()⟩]
    search := rest
    arrivals := lobby.arrivals ++ [x] }

/-- One of the arrivals has got an answer. A watcher that is handed over enters the queue. -/
def answer (lobby : Lobby) (before : List Arrival) (x : Arrival) (after : List Arrival)
    (e : Exchange Live) (rest : Program Live Unit) : Lobby :=
  { lobby with
    arrivals := before ++ { x with asked := x.asked ++ [e], rest } :: after
    queue := lobby.queue ++ Live.handedOver [e] }

/-- The loop has got an answer. -/
def goOn (lobby : Lobby) (e : Exchange (Tracking Contract))
    (rest : Program (Tracking Contract) Unit) : Lobby :=
  { lobby with log := lobby.log ++ [e], loop := rest }

/-- Something has happened to the roster. -/
def record (lobby : Lobby) (event : Event Contract) (roster : Roster (Task Contract)) : Lobby :=
  { lobby with history := lobby.history ++ [event], roster }

inductive Step (p : Polling Contract σ) (settings : Settings) (factory : Address) (lobby : Lobby) :
    Lobby → Prop
  | look {q : Live.Ask} {next : Live.Reply q → Program Live (Except Fault Unit)}
      (reply : Live.Reply q) (h : lobby.search = .ask q next) (hq : Live.NoWelcome q) :
      Step p settings factory lobby (lobby.lookOn ⟨q, reply⟩ (next reply))
  | arrive {origin : Discovery.Origin} {game : Address}
      {next : Unit → Program Live (Except Fault Unit)}
      (h : lobby.search = .ask (.search (.welcome origin game)) next) :
      Step p settings factory lobby (lobby.arrive settings factory origin game (next ()))
  | ask {before after : List Arrival} {x : Arrival} {q : Live.Ask}
      {next : Live.Reply q → Program Live Unit} (reply : Live.Reply q)
      (hx : lobby.arrivals = before ++ x :: after) (h : x.rest = .ask q next)
      (hq : ∀ watcher, q ≠ .handOver watcher) :
      Step p settings factory lobby (lobby.answer before x after ⟨q, reply⟩ (next reply))
  | handOver {before after : List Arrival} {x : Arrival} {watcher : Watcher Contract}
      {next : Bool → Program Live Unit} (hx : lobby.arrivals = before ++ x :: after)
      (h : x.rest = .ask (.handOver watcher) next) :
      Step p settings factory lobby
        (lobby.answer before x after ⟨.handOver watcher, true⟩ (next true))
  /-- The loop has ended and takes no watchers any more. -/
  | refuse {before after : List Arrival} {x : Arrival} {watcher : Watcher Contract}
      {next : Bool → Program Live Unit} (hx : lobby.arrivals = before ++ x :: after)
      (h : x.rest = .ask (.handOver watcher) next) (hloop : lobby.loop = .done ()) :
      Step p settings factory lobby
        (lobby.answer before x after ⟨.handOver watcher, false⟩ (next false))
  /-- The loop takes the first watcher in the queue that it has not taken. -/
  | take {watcher : Watcher Contract}
      {next : Tracking.Event Contract → Program (Tracking Contract) Unit}
      (h : lobby.loop = .ask .next next)
      (hfirst : lobby.queue[(received lobby.log).length]? = some watcher) :
      Step p settings factory lobby
        (lobby.goOn ⟨.next, .handedOver watcher⟩ (next (.handedOver watcher)))
  | track {watcher : Watcher Contract} {next : Bool → Program (Tracking Contract) Unit}
      {started : Bool} {roster : Roster (Task Contract)}
      (h : lobby.loop = .ask (.track watcher) next)
      (hmoves : p.Moves lobby.roster (.tracked watcher started) roster) :
      Step p settings factory lobby
        ((lobby.goOn ⟨.track watcher, started⟩ (next started)).record (.tracked watcher started)
          roster)
  | part {address : Address} {status : Game.Status}
      {next : Tracking.Event Contract → Program (Tracking Contract) Unit}
      {roster : Roster (Task Contract)} (h : lobby.loop = .ask .next next)
      (hmoves : p.Moves lobby.roster (.joined (.ended address status)) roster) :
      Step p settings factory lobby
        ((lobby.goOn ⟨.next, .ended address status⟩ (next (.ended address status))).record
          (.joined (.ended address status)) roster)
  /-- The signal to stop has been given. -/
  | stop {next : Tracking.Event Contract → Program (Tracking Contract) Unit}
      (h : lobby.loop = .ask .next next) :
      Step p settings factory lobby (lobby.goOn ⟨.next, .stopped⟩ (next .stopped))
  /-- A task goes on. -/
  | go {address : Address} {stopped : Bool} {outcome : Outcome Contract}
      {roster : Roster (Task Contract)}
      (hmoves : p.Moves lobby.roster (.went address stopped outcome) roster) :
      Step p settings factory lobby (lobby.record (.went address stopped outcome) roster)

inductive Reaches (p : Polling Contract σ) (settings : Settings) (factory : Address)
    (gameType : UInt32) (window : UInt64) (events n : Nat) : Lobby → Prop
  | opening : Reaches p settings factory gameType window events n
      (opening factory gameType window events n)
  | step {lobby lobby' : Lobby} (h : Reaches p settings factory gameType window events n lobby)
      (hstep : lobby.Step p settings factory lobby') :
      Reaches p settings factory gameType window events n lobby'

end Lobby

/-! ## The invariant -/

namespace Lobby

variable {lobby lobby' : Lobby}

structure Consistent (p : Polling Contract σ) (settings : Settings) (factory : Address)
    (gameType : UInt32) (window : UInt64) (events n : Nat) (lobby : Lobby) : Prop where
  search : ((Discovery.discover gameType window events).run.handle (Live.survey factory)).Leaves
    lobby.searched lobby.search
  arrived : lobby.arrivals.map Arrival.tag = Live.welcomes lobby.searched
  welcomed : ∀ x ∈ lobby.arrivals,
    (Live.welcome settings factory x.origin x.game).Leaves x.asked x.rest
  queued : lobby.queue.Perm (lobby.arrivals.flatMap fun x => Live.handedOver x.asked)
  loop : (attend n).Leaves lobby.log lobby.loop
  fifo : received lobby.log <+: lobby.queue
  runs : p.Runs lobby.history lobby.roster
  told : lobby.history.filterMap Event.round? = Tracking.told lobby.log

theorem Consistent.opening (p : Polling Contract σ) (settings : Settings) (factory : Address)
    (gameType : UInt32) (window : UInt64) (events n : Nat) :
    Consistent p settings factory gameType window events n
      (opening factory gameType window events n) where
  search := .here _
  arrived := rfl
  welcomed := List.forall_mem_nil _
  queued := .refl _
  loop := .here _
  fifo := List.prefix_rfl
  runs := .start
  told := rfl

theorem Consistent.look {q : Live.Ask} {next : Live.Reply q → Program Live (Except Fault Unit)}
    (h : Consistent p settings factory gameType window events n lobby) (reply : Live.Reply q)
    (hsearch : lobby.search = .ask q next) (hq : Live.NoWelcome q) :
    Consistent p settings factory gameType window events n
      (lobby.lookOn ⟨q, reply⟩ (next reply)) where
  search := by
    have hleaves := h.search
    rw [hsearch] at hleaves
    exact hleaves.snoc reply
  arrived := by
    have hnone : Live.welcomes [⟨q, reply⟩] = [] :=
      Live.welcomes_of_noWelcome (List.forall_mem_singleton.mpr hq)
    rw [Lobby.lookOn, Live.welcomes_append, hnone, List.append_nil]
    exact h.arrived
  welcomed := h.welcomed
  queued := h.queued
  loop := h.loop
  fifo := h.fifo
  runs := h.runs
  told := h.told

theorem Consistent.arrive {origin : Discovery.Origin} {game : Address}
    {next : Unit → Program Live (Except Fault Unit)}
    (h : Consistent p settings factory gameType window events n lobby)
    (hsearch : lobby.search = .ask (.search (.welcome origin game)) next) :
    Consistent p settings factory gameType window events n
      (lobby.arrive settings factory origin game (next ())) where
  search := by
    have hleaves := h.search
    rw [hsearch] at hleaves
    exact hleaves.snoc ()
  arrived := by
    rw [Lobby.arrive, List.map_append, h.arrived, Live.welcomes_append]
    rfl
  welcomed := List.forall_mem_append.mpr
    ⟨h.welcomed, List.forall_mem_singleton.mpr (.here _)⟩
  queued := by
    rw [Lobby.arrive, List.flatMap_append]
    exact (List.append_nil _).symm ▸ h.queued
  loop := h.loop
  fifo := h.fifo
  runs := h.runs
  told := h.told

theorem Consistent.answer {before after : List Arrival} {x : Arrival} {q : Live.Ask}
    {next : Live.Reply q → Program Live Unit}
    (h : Consistent p settings factory gameType window events n lobby) (reply : Live.Reply q)
    (hx : lobby.arrivals = before ++ x :: after) (hrest : x.rest = .ask q next) :
    Consistent p settings factory gameType window events n
      (lobby.answer before x after ⟨q, reply⟩ (next reply)) where
  search := h.search
  arrived := by
    rw [Lobby.answer, ← h.arrived, hx, List.map_append, List.map_append]
    rfl
  welcomed := by
    have hall := h.welcomed
    rw [hx, List.forall_mem_append, List.forall_mem_cons] at hall
    obtain ⟨hbefore, hleaves, hafter⟩ := hall
    rw [hrest] at hleaves
    exact List.forall_mem_append.mpr
      ⟨hbefore, List.forall_mem_cons.mpr ⟨hleaves.snoc reply, hafter⟩⟩
  queued := by
    have hqueued := h.queued
    rw [hx, List.flatMap_append, List.flatMap_cons] at hqueued
    simp only [Lobby.answer, List.flatMap_append, List.flatMap_cons, Live.handedOver_append]
    generalize Live.handedOver [(⟨q, reply⟩ : Exchange Live)] = new
    refine (hqueued.append_right new).trans ?_
    simp only [List.append_assoc]
    exact ((List.perm_append_comm.append_left _).append_left _)
  loop := h.loop
  fifo := h.fifo.trans (List.prefix_append ..)
  runs := h.runs
  told := h.told

/-- The loop goes on, and the roster with it. -/
theorem Consistent.goOn {q : Tracking.Ask Contract}
    {next : Tracking.Reply Contract q → Program (Tracking Contract) Unit}
    {reply : Tracking.Reply Contract q} {history : List (Event Contract)}
    {roster : Roster (Task Contract)}
    (h : Consistent p settings factory gameType window events n lobby)
    (hloop : lobby.loop = .ask q next)
    (hfifo : received (lobby.log ++ [⟨q, reply⟩]) <+: lobby.queue)
    (hruns : p.Runs history roster)
    (htold : history.filterMap Event.round? = Tracking.told (lobby.log ++ [⟨q, reply⟩])) :
    Consistent p settings factory gameType window events n
      { lobby.goOn ⟨q, reply⟩ (next reply) with history, roster } where
  search := h.search
  arrived := h.arrived
  welcomed := h.welcomed
  queued := h.queued
  loop := by
    have hleaves := h.loop
    rw [hloop] at hleaves
    exact hleaves.snoc reply
  fifo := hfifo
  runs := hruns
  told := htold

/-- An answer of the loop that is no watcher leaves the order of the queue as it is. -/
theorem Consistent.fifo_snoc {e : Exchange (Tracking Contract)}
    (h : Consistent p settings factory gameType window events n lobby) (he : received [e] = []) :
    received (lobby.log ++ [e]) <+: lobby.queue := by
  rw [received_append, he, List.append_nil]
  exact h.fifo

/-- An answer of the loop that is of no round. -/
theorem Consistent.told_snoc {e : Exchange (Tracking Contract)}
    (h : Consistent p settings factory gameType window events n lobby)
    (he : Tracking.told [e] = []) :
    lobby.history.filterMap Event.round? = Tracking.told (lobby.log ++ [e]) := by
  rw [told_append, he, List.append_nil]
  exact h.told

/-- The loop gets an answer from the roster, which has moved on. -/
theorem Consistent.handled {q : Tracking.Ask Contract}
    {next : Tracking.Reply Contract q → Program (Tracking Contract) Unit}
    {reply : Tracking.Reply Contract q} {event : Event Contract} {roster : Roster (Task Contract)}
    (h : Consistent p settings factory gameType window events n lobby)
    (hloop : lobby.loop = .ask q next) (hreceived : received [⟨q, reply⟩] = [])
    (hmoves : p.Moves lobby.roster event roster)
    (htold : [event].filterMap Event.round? = Tracking.told [⟨q, reply⟩]) :
    Consistent p settings factory gameType window events n
      ((lobby.goOn ⟨q, reply⟩ (next reply)).record event roster) := by
  refine h.goOn hloop (h.fifo_snoc hreceived) (h.runs.snoc hmoves) ?_
  rw [told_append, ← htold, ← h.told]
  exact List.filterMap_append

theorem Consistent.step (h : Consistent p settings factory gameType window events n lobby)
    (hstep : lobby.Step p settings factory lobby') :
    Consistent p settings factory gameType window events n lobby' := by
  cases hstep with
  | look reply hsearch hq => exact h.look reply hsearch hq
  | arrive hsearch => exact h.arrive hsearch
  | ask reply hx hrest hq => exact h.answer reply hx hrest
  | handOver hx hrest => exact h.answer true hx hrest
  | refuse hx hrest hloop => exact h.answer false hx hrest
  | take hloop hfirst =>
    refine h.goOn hloop ?_ h.runs (h.told_snoc rfl)
    obtain ⟨hlength, rfl⟩ := List.getElem?_eq_some_iff.mp hfirst
    rw [received_append]
    exact List.concat_get_prefix h.fifo hlength
  | track hloop hmoves => exact h.handled hloop rfl hmoves rfl
  | part hloop hmoves => exact h.handled hloop rfl hmoves rfl
  | stop hloop => exact h.goOn hloop (h.fifo_snoc rfl) h.runs (h.told_snoc rfl)
  | go hmoves =>
    refine { h with runs := h.runs.snoc hmoves, told := ?_ }
    rw [record, List.filterMap_append, h.told]
    exact List.append_nil _

theorem Reaches.consistent (h : Reaches p settings factory gameType window events n lobby) :
    Consistent p settings factory gameType window events n lobby := by
  induction h with
  | opening => exact .opening ..
  | step _ hstep ih => exact ih.step hstep

/-- Whoever is in the queue was handed over. -/
theorem Consistent.of_queue (h : Consistent p settings factory gameType window events n lobby)
    {w : Watcher Contract} (hw : w ∈ lobby.queue) : w.status = .inProgress ∧
      ∃ x ∈ lobby.arrivals, w.game = ⟨x.game, factory⟩ ∧ w.address = x.game := by
  obtain ⟨x, hx, hhanded⟩ := List.mem_flatMap.mp (h.queued.mem_iff.mp hw)
  obtain ⟨-, -, hgoes, hmade⟩ := (Live.receives_of_leaves (h.welcomed x hx)).of_handedOver hhanded
  exact ⟨hgoes, x, hx, hmade⟩

/-- Whoever was taken in was in the queue. -/
theorem Consistent.mem_queue {rounds : List (Round Contract)}
    {tail : List (Exchange (Tracking Contract))} {w : Watcher Contract} {started : Bool}
    (h : Consistent p settings factory gameType window events n lobby)
    (hlog : lobby.log = rounds.flatMap Round.exchanges ++ tail)
    (hw : .received w started ∈ rounds) : w ∈ lobby.queue := by
  refine h.fifo.subset ?_
  rw [hlog, received_append, received_rounds]
  exact List.mem_append_left _ (List.mem_filterMap.mpr ⟨_, hw, rfl⟩)

end Lobby

open Lobby in
/-- Whoever goes on next: the arrivals are the games that the search has welcomed, each looked after
in its own way; the queue holds the watchers that were handed over, all of arrivals whose games were
in progress; and the loop takes them in the order of the queue, in whole rounds, until it is told to
stop. At every address tasks are started one after another, each when the loop has seen the end of
the one before, and an address is tracked as long as one is present. A watcher that is taken in gets
a task exactly if none is present at its address. -/
theorem games_taken_in (hperiod : p.period ≠ 0) {lobby : Lobby}
    (h : Reaches p settings factory gameType window events n lobby) :
    (∃ trace rest, (Discovery.discover gameType window events).run.Leaves trace rest ∧
      lobby.arrivals.map Arrival.tag = Discovery.welcomed trace) ∧
    (∀ x ∈ lobby.arrivals, Live.Receives settings factory x.origin x.game x.asked x.rest) ∧
    lobby.queue.Perm (lobby.arrivals.flatMap fun x => Live.handedOver x.asked) ∧
    (∀ w ∈ lobby.queue, w.status = .inProgress ∧
      ∃ x ∈ lobby.arrivals, w.game = ⟨x.game, factory⟩ ∧ w.address = x.game) ∧
    ∃ (rounds : List (Round Contract)) (tail : List (Exchange (Tracking Contract))),
      lobby.log = rounds.flatMap Round.exchanges ++ tail ∧
      Attends n rounds.length tail lobby.loop ∧ received lobby.log <+: lobby.queue ∧
      (∀ a, ∃ present, p.InTurn a rounds present ∧
        (a ∈ lobby.roster.tracked ↔ present.isSome)) ∧
      ∀ before w started after, rounds = before ++ .received w started :: after →
        ∃ present, p.InTurn w.address before present ∧ (started = true ↔ present = none) := by
  have hconsistent := h.consistent
  obtain ⟨outer, left, houter, hwelcomed⟩ := Live.searches_of_leaves hconsistent.search
  obtain ⟨rounds, tail, hlog, hattends⟩ := attends_of_leaves hconsistent.loop
  have hrounds : lobby.history.filterMap Event.round? = rounds := by
    rw [hconsistent.told, hlog, told_append, told_rounds, hattends.told_tail, List.append_nil]
  refine ⟨⟨outer, left, houter, hconsistent.arrived.trans hwelcomed.symm⟩,
    fun x hx => Live.receives_of_leaves (hconsistent.welcomed x hx), hconsistent.queued,
    fun w hw => hconsistent.of_queue hw, rounds, tail, hlog, hattends, hconsistent.fifo,
    fun a => ?_, fun before w started after hsplit => ?_⟩
  · rw [← hrounds]
    exact Polling.inTurn_of_runs hperiod hconsistent.runs a
  · obtain ⟨present, hturn, hstarted⟩ :=
      Polling.inTurn_of_received hperiod hconsistent.runs (hrounds.trans hsplit)
    have hw : .received w started ∈ rounds := hsplit ▸ List.mem_append_right _ (.head _)
    have hgoes := (hconsistent.of_queue (hconsistent.mem_queue hlog hw)).1
    exact ⟨present, hturn, hstarted.trans (and_iff_right hgoes)⟩

end

end Watchtower
