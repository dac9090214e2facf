import Watchtower.Proofs.Settlement

/-!
# The life of a watcher

A watcher is made, and makes its ticks one after another. Every question may be answered by a fault,
and differently each time; and a tick may be dropped while it waits for an answer. What it had not
written by then is lost: the watcher is as it was, but for the cache, which it shares with the tick.

* `p.Awaits trace q` : after the exchanges of `trace` the program `p` waits for the answer to `q`;
* `w.Happens trace returned w'` : a tick of `w`, with the exchanges of `trace`, returns a status or
  is dropped, and leaves `w'`. `Lives w calls w'` : such calls are made one after another;
* `w.ReadsAtEnd trace status` : in a tick of `w`, when the inspector is done, the status is read;
  `LastRead known calls status` : the last status read in this way, or `known` if none was;
* `w.Ends trace w'` : how a tick that returns comes to its end: unless the watcher is idle or the
  node is behind, it reads the status when the inspector is done, and goes by it;
* `w.Sound` : there is an inspector exactly if the known status is that of a game in progress;
* `lifecycle` : a watcher is sound throughout, knows the last status read, and returns what it
  knows. Once it knows that the game is over, it asks nothing any more.
-/

namespace Watchtower

/-! ## Programs cut short -/

namespace Program

variable {I : Interface} {α β : Type} {p : Program I α} {f : α → Program I β} {q : I.Ask}
  {first rest trace : List (Exchange I)} {a : α} {b : β}

inductive Awaits : Program I α → List (Exchange I) → I.Ask → Prop
  | now (q : I.Ask) (next : I.Reply q → Program I α) : Awaits (ask q next) [] q
  | later {q q' : I.Ask} {next : I.Reply q → Program I α} {reply : I.Reply q}
      {trace : List (Exchange I)} (h : Awaits (next reply) trace q') :
      Awaits (ask q next) (⟨q, reply⟩ :: trace) q'

@[simp] theorem not_awaits_done : ¬ Awaits (done a : Program I α) trace q := by rintro ⟨⟩

theorem awaits_ask_cons_iff {q' : I.Ask} {next : I.Reply q → Program I α} {reply : I.Reply q} :
    Awaits (ask q next) (⟨q, reply⟩ :: trace) q' ↔ Awaits (next reply) trace q' := by
  constructor
  · rintro ⟨⟩
    assumption
  · exact .later

/-- Exchanges that are enough for the first part of a sequence leave the rest to the second. -/
theorem Yields.awaits_rest (h : p.Yields first a) (hb : (p >>= f).Awaits (first ++ rest) q) :
    (f a).Awaits rest q := by
  induction h with
  | done a => exact hb
  | ask _ ih => exact ih (awaits_ask_cons_iff.mp hb)

theorem Yields.yields_rest (h : p.Yields first a) (hb : (p >>= f).Yields (first ++ rest) b) :
    (f a).Yields rest b := by
  induction h with
  | done a => exact hb
  | ask _ ih =>
    obtain ⟨reply, trace, htrace, hnext⟩ := yields_ask_iff.mp hb
    obtain ⟨he, rfl⟩ := List.cons.inj htrace
    obtain rfl := eq_of_heq (Exchange.mk.inj he).2
    exact ih hnext

end Program

open Watcher

section
variable {γ : Type} {w w₀ w₁ w' : Watcher γ} {i : Inspector γ} {cache c : OutputCache}
  {acting rest trace : List (Exchange (Watch γ))} {status : Game.Status}

namespace Watcher

/-! ## What follows the work of the inspector -/

section
variable (hactive : w.active = some (i, cache)) (hact : (actOnce w.address i cache).Yields acting c)
include hactive hact

theorem yields_conclude {result : Game.Status × Watcher γ}
    (h : w.progress.Yields (⟨.validate i.head, .ok ()⟩ :: (acting ++ rest)) result) :
    (w.conclude i c).Yields rest result := by
  unfold progress at h
  rw [hactive] at h
  obtain ⟨synced, trace, htrace, htick⟩ := yields_ask_bind_iff.mp h
  obtain ⟨hsynced, rfl⟩ := List.cons.inj htrace
  obtain rfl := Exchange.reply_inj hsynced
  replace htick : (actOnce w.address i cache >>= fun c => w.conclude i c).Yields (acting ++ rest)
    result := htick
  exact hact.yields_rest htick

theorem awaits_conclude {q : Watch.Ask γ}
    (h : w.progress.Awaits (⟨.validate i.head, .ok ()⟩ :: (acting ++ rest)) q) :
    (w.conclude i c).Awaits rest q := by
  unfold progress at h
  rw [hactive] at h
  replace h : (actOnce w.address i cache >>= fun c => w.conclude i c).Awaits (acting ++ rest) q :=
    Program.awaits_ask_cons_iff.mp h
  exact hact.awaits_rest h

end

/-- When the status has been read, a tick still waits for an answer only if the game goes on. -/
theorem inProgress_of_awaits {q : Watch.Ask γ}
    (h : (w.conclude i c).Awaits (⟨.read w.game .status, .ok status⟩ :: rest) q) :
    status = .inProgress := by
  have hafter := Program.awaits_ask_cons_iff.mp h
  by_cases hgoes : status = .inProgress
  · exact hgoes
  · change (probe w.game status >>= fun _ => _).Awaits rest q at hafter
    rw [probe, if_neg hgoes] at hafter
    exact absurd hafter Program.not_awaits_done

/-- There is an inspector exactly if the game is known to be in progress. -/
def Sound (w : Watcher γ) : Prop := w.active.isSome ↔ w.status = .inProgress

theorem Sound.inProgress (h : w.Sound) (hactive : w.active = some (i, cache)) :
    w.status = .inProgress := by
  apply h.mp
  rw [hactive]
  rfl

theorem Sound.active_eq_none (h : w.Sound) (hover : w.status ≠ .inProgress) : w.active = none := by
  cases hactive : w.active with
  | none => rfl
  | some equipment => exact absurd (h.inProgress hactive) hover

/-- The watcher with its cache as it may be by now. -/
def withCache (w : Watcher γ) (cache : OutputCache) : Watcher γ :=
  { w with active := w.active.map fun equipment => (equipment.1, cache) }

theorem Sound.withCache (h : w.Sound) (cache : OutputCache) : (w.withCache cache).Sound := by
  unfold Sound Watcher.withCache
  rw [Option.isSome_map]
  exact h

/-- When the inspector is done, the status is read. That the inspector itself reads it does not
count. -/
def ReadsAtEnd (w : Watcher γ) (trace : List (Exchange (Watch γ))) (status : Game.Status) : Prop :=
  ∃ i cache acting c after, w.active = some (i, cache) ∧
    (actOnce w.address i cache).Yields acting c ∧
    trace = ⟨.validate i.head, .ok ()⟩ :: (acting ++ ⟨.read w.game .status, .ok status⟩ :: after)

/-- The ways of a tick that returns. If the watcher is not idle and its node is not behind, the
status is read once when the inspector is done, and is what is known from then on if it can be
read. -/
inductive Ends (w : Watcher γ) : List (Exchange (Watch γ)) → Watcher γ → Prop
  | idle (h : w.active = none) : Ends w [] w
  | behind {i : Inspector γ} {cache : OutputCache} {fault : Fault} {notice : Notice}
      (h : w.active = some (i, cache)) :
      Ends w [⟨.validate i.head, .error fault⟩, ⟨.notify notice, ()⟩] w
  | reads {i : Inspector γ} {cache c : OutputCache} {acting after : List (Exchange (Watch γ))}
      {known : Except Fault Game.Status} {w' : Watcher γ} (h : w.active = some (i, cache))
      (hact : (actOnce w.address i cache).Yields acting c)
      (honce : ∀ e ∈ after, e.ask ≠ .read w.game .status)
      (hstatus : w'.status = known.toOption.getD w.status) :
      Ends w (⟨.validate i.head, .ok ()⟩ :: (acting ++ ⟨.read w.game .status, known⟩ :: after)) w'

/-- When the status has been read, it is not read again. -/
theorem concluded_once {status : Game.Status} (h : (w.conclude i c).Yields trace (status, w')) :
    ∃ known after, trace = ⟨.read w.game .status, known⟩ :: after ∧
      (∀ e ∈ after, e.ask ≠ .read w.game .status) ∧
      status = known.toOption.getD w.status ∧ w'.status = status := by
  obtain ⟨known, after, rfl, hafter⟩ := yields_ask_bind_iff.mp h
  clear h
  refine ⟨known, after, rfl, ?_⟩
  cases known with
  | error fault =>
    obtain ⟨_, _, rfl, hdone⟩ := yields_ask_bind_iff.mp hafter
    obtain ⟨rfl, rfl, rfl⟩ := yields_returned_iff.mp hdone
    refine ⟨fun e he => ?_, rfl, rfl⟩
    obtain rfl := List.mem_singleton.mp he
    exact nofun
  | ok known =>
    obtain ⟨_, probing, _, rfl, hprobe, hdone⟩ := Program.yields_bind_iff.mp hafter
    obtain ⟨rfl, rfl, rfl⟩ := yields_returned_iff.mp hdone
    refine ⟨fun e he hread => ?_, rfl, rfl⟩
    rw [List.append_nil] at he
    have hasked := (asks_probe w.game status).of_yields hprobe e he
    rw [hread] at hasked
    exact hasked

theorem Ends.of_yields (h : w.progress.Yields trace (status, w')) : w.Ends trace w' := by
  cases Advances.of_yields h with
  | idle hidle => exact .idle hidle
  | behind hactive => exact .behind hactive
  | acts hactive hact hend =>
    obtain ⟨known, after, rfl, honce, hstatus, hkept⟩ := concluded_once hend
    exact .reads hactive hact honce (hkept.trans hstatus)

/-! ## Calls -/

/-- A tick returns a status, or is dropped while it waits for an answer. -/
inductive Happens (w : Watcher γ) :
    List (Exchange (Watch γ)) → Option Game.Status → Watcher γ → Prop
  | returns {trace : List (Exchange (Watch γ))} {status : Game.Status} {w' : Watcher γ}
      (h : w.progress.Yields trace (status, w')) : Happens w trace (some status) w'
  | dropped {trace : List (Exchange (Watch γ))} {q : Watch.Ask γ} (cache : OutputCache)
      (h : w.progress.Awaits trace q) : Happens w trace none (w.withCache cache)

/-- What a call does to what is known. -/
structure Follows (w : Watcher γ) (trace : List (Exchange (Watch γ)))
    (returned : Option Game.Status) (w' : Watcher γ) : Prop where
  game : w'.game = w.game
  sound : w'.Sound
  read : ∀ status, w.ReadsAtEnd trace status → status = w'.status
  unread : (∀ status, ¬ w.ReadsAtEnd trace status) → w'.status = w.status
  ends : returned ≠ none → w.Ends trace w'
  returned : ∀ status, returned = some status → status = w'.status

theorem follows_returned (hsound : w.Sound) (h : w.progress.Yields trace (status, w')) :
    w.Follows trace (some status) w' := by
  -- Whatever is read at the end is what the tick concludes with.
  have hread : ∀ st, w.ReadsAtEnd trace st → st = w'.status := by
    rintro st ⟨i, cache, acting, c, after, hactive, hact, rfl⟩
    cases Concludes.of_yields (yields_conclude hactive hact h) with
    | read => rfl
  have hends : some status ≠ none → w.Ends trace w' := fun _ => .of_yields h
  cases Advances.of_yields h with
  | idle => exact ⟨rfl, hsound, hread, fun _ => rfl, hends, fun _ hr => (Option.some.inj hr).symm⟩
  | behind => exact ⟨rfl, hsound, hread, fun _ => rfl, hends, fun _ hr => (Option.some.inj hr).symm⟩
  | @acts i cache c acting _ _ _ hactive hact hend =>
    cases Concludes.of_yields hend with
    | unreadable fault after =>
      refine ⟨rfl, ?_, hread, fun _ => rfl, hends, fun _ hr => (Option.some.inj hr).symm⟩
      exact ⟨fun _ => hsound.inProgress hactive, fun _ => rfl⟩
    | read status after =>
      refine ⟨rfl, ?_, hread, fun hnone => ?_, hends, fun _ hr => (Option.some.inj hr).symm⟩
      · unfold Sound
        cases status <;> simp
      · exact absurd ⟨i, cache, acting, c, after, hactive, hact, rfl⟩ (hnone status)

theorem follows_dropped (hsound : w.Sound) {q : Watch.Ask γ} (h : w.progress.Awaits trace q)
    (cache : OutputCache) : w.Follows trace none (w.withCache cache) := by
  refine ⟨rfl, hsound.withCache cache, ?_, fun _ => rfl, fun hne => absurd rfl hne, nofun⟩
  rintro status ⟨i, cache, acting, c, after, hactive, hact, rfl⟩
  rw [inProgress_of_awaits (awaits_conclude hactive hact h)]
  exact (hsound.inProgress hactive).symm

theorem Happens.follows {returned : Option Game.Status} (h : w.Happens trace returned w')
    (hsound : w.Sound) : w.Follows trace returned w' := by
  cases h with
  | returns h => exact follows_returned hsound h
  | dropped cache h => exact follows_dropped hsound h cache

/-- A watcher without an inspector asks nothing, so its tick cannot be dropped. -/
theorem Happens.idle {returned : Option Game.Status} (h : w.Happens trace returned w')
    (hidle : w.active = none) : trace = [] ∧ returned = some w.status ∧ w' = w := by
  have hdone : w.progress = .done (w.status, w) := by
    unfold progress
    rw [hidle]
    rfl
  cases h with
  | returns h =>
    rw [hdone] at h
    obtain ⟨rfl, rfl, rfl⟩ := yields_returned_iff.mp h
    exact ⟨rfl, rfl, rfl⟩
  | dropped cache h =>
    rw [hdone] at h
    exact absurd h Program.not_awaits_done

end Watcher

/-! ## Lives -/

/-- A call to make a tick: its exchanges, and the status that it returns if it is not dropped. -/
structure Call (γ : Type) where
  before : Watcher γ
  trace : List (Exchange (Watch γ))
  returned : Option Game.Status
  after : Watcher γ

inductive Lives : Watcher γ → List (Call γ) → Watcher γ → Prop
  | nil (w : Watcher γ) : Lives w [] w
  | cons {w w' : Watcher γ} {call : Call γ} {calls : List (Call γ)} (hbefore : call.before = w)
      (h : w.Happens call.trace call.returned call.after) (rest : Lives call.after calls w') :
      Lives w (call :: calls) w'

/-- The status that was read last at the end of a call, or the one known before. -/
inductive LastRead : Game.Status → List (Call γ) → Game.Status → Prop
  | nil (known : Game.Status) : LastRead known [] known
  | read {known status last : Game.Status} {call : Call γ} {calls : List (Call γ)}
      (hread : call.before.ReadsAtEnd call.trace status) (rest : LastRead status calls last) :
      LastRead known (call :: calls) last
  | unread {known last : Game.Status} {call : Call γ} {calls : List (Call γ)}
      (hread : ∀ status, ¬ call.before.ReadsAtEnd call.trace status)
      (rest : LastRead known calls last) :
      LastRead known (call :: calls) last

theorem Lives.follows {calls : List (Call γ)} (h : Lives w₀ calls w) (hsound : w₀.Sound) :
    w.game = w₀.game ∧ w.Sound ∧
      ∀ call ∈ calls, call.before.Follows call.trace call.returned call.after := by
  induction h with
  | nil w => exact ⟨rfl, hsound, fun _ hm => absurd hm List.not_mem_nil⟩
  | cons hbefore h rest ih =>
    subst hbefore
    have hfollows := h.follows hsound
    obtain ⟨hgame, hsound, hcalls⟩ := ih hfollows.sound
    exact ⟨hgame.trans hfollows.game, hsound, List.forall_mem_cons.mpr ⟨hfollows, hcalls⟩⟩

theorem Lives.lastRead {calls : List (Call γ)} (h : Lives w₀ calls w) (hsound : w₀.Sound) :
    LastRead w₀.status calls w.status := by
  induction h with
  | nil w => exact .nil w.status
  | @cons _ _ call _ hbefore h rest ih =>
    subst hbefore
    have hfollows := h.follows hsound
    by_cases hread : ∃ status, call.before.ReadsAtEnd call.trace status
    · obtain ⟨status, hread⟩ := hread
      obtain rfl := hfollows.read status hread
      exact .read hread (ih hfollows.sound)
    · have hnone : ∀ status, ¬ call.before.ReadsAtEnd call.trace status :=
        fun status hs => hread ⟨status, hs⟩
      refine .unread hnone ?_
      rw [← hfollows.unread hnone]
      exact ih hfollows.sound

/-- At the end of a call no more than one status is read, so one was read last. -/
theorem LastRead.unique {calls : List (Call γ)}
    (hcalls : ∀ call ∈ calls, call.before.Follows call.trace call.returned call.after)
    {known last last' : Game.Status} (h : LastRead known calls last)
    (h' : LastRead known calls last') : last = last' := by
  induction h with
  | nil =>
    cases h'
    rfl
  | read hread rest ih =>
    obtain ⟨hfirst, hcalls⟩ := List.forall_mem_cons.mp hcalls
    cases h' with
    | read hread' rest' =>
      have heq := (hfirst.read _ hread).trans (hfirst.read _ hread').symm
      subst heq
      exact ih hcalls rest'
    | unread hnone rest' => exact absurd hread (hnone _)
  | unread hnone rest ih =>
    obtain ⟨-, hcalls⟩ := List.forall_mem_cons.mp hcalls
    cases h' with
    | read hread' rest' => exact absurd hread' (hnone _)
    | unread hnone' rest' => exact ih hcalls rest'

theorem Lives.idle {later : List (Call γ)} (h : Lives w later w') (hidle : w.active = none) :
    w' = w ∧ ∀ call ∈ later, call.trace = [] ∧ call.returned = some w.status := by
  induction h with
  | nil w => exact ⟨rfl, fun _ hm => absurd hm List.not_mem_nil⟩
  | cons hbefore h rest ih =>
    obtain ⟨htrace, hreturned, hafter⟩ := h.idle hidle
    rw [hafter] at ih
    obtain ⟨hlast, hcalls⟩ := ih hidle
    exact ⟨hlast, List.forall_mem_cons.mpr ⟨⟨htrace, hreturned⟩, hcalls⟩⟩

/-! ## From the beginning -/

theorem made_sound {settings : Settings} {game : γ} {address : Address}
    {making : List (Exchange (Watch γ))}
    (h : (Watcher.of settings game address).Yields making (.ok w)) :
    w.game = game ∧ w.Sound ∧ making.head? = some ⟨.read game .status, .ok w.status⟩ := by
  obtain ⟨reply, rest, rfl, hrest⟩ := yields_ask_bind_iff.mp h
  cases reply with
  | error fault => exact nomatch (Program.yields_done_iff.mp hrest).2
  | ok status =>
    dsimp only at hrest
    split at hrest
    · next hover =>
      obtain ⟨rfl, hresult⟩ := Program.yields_done_iff.mp hrest
      obtain rfl := Except.ok.inj hresult
      exact ⟨rfl, ⟨nofun, fun h => absurd h hover⟩, rfl⟩
    · next hgoes =>
      obtain rfl := Classical.not_not.mp hgoes
      obtain ⟨⟨equipment, _⟩, _, _, rfl, -, hmade⟩ := Program.yields_bind_iff.mp hrest
      obtain ⟨rfl, hresult⟩ := Program.yields_done_iff.mp hmade
      cases equipment with
      | error fault => cases hresult
      | ok active =>
        obtain rfl := Except.ok.inj hresult
        exact ⟨rfl, ⟨fun _ => rfl, fun _ => rfl⟩, rfl⟩

/-- A watcher is made, and makes its ticks, of which any may be dropped. It has an inspector exactly
if the status that it knows is "in progress"; it knows the status that was read last, when it was
made or at the end of a tick, and that is what a tick returns; every tick that returns reads it at
its end, unless the watcher is idle or the node is behind; and once the watcher knows that the game
is over, it does not change any more, and asks nothing. -/
theorem lifecycle {settings : Settings} {game : γ} {address : Address}
    {making : List (Exchange (Watch γ))} {calls : List (Call γ)}
    (hmade : (Watcher.of settings game address).Yields making (.ok w₀)) (h : Lives w₀ calls w) :
    w.game = game ∧ (w.active.isSome ↔ w.status = .inProgress) ∧
    (∃ first, making.head? = some ⟨.read game .status, .ok first⟩ ∧
      ∀ last, LastRead first calls last ↔ last = w.status) ∧
    (∀ call ∈ calls, ∀ status, call.returned = some status → status = call.after.status) ∧
    (∀ call ∈ calls, call.returned ≠ none → call.before.Ends call.trace call.after) ∧
    (w.status ≠ .inProgress → ∀ {later w'}, Lives w later w' →
      w' = w ∧ ∀ call ∈ later, call.trace = [] ∧ call.returned = some w.status) := by
  obtain ⟨hgame, hsound₀, hfirst⟩ := made_sound hmade
  obtain ⟨hsame, hsound, hcalls⟩ := h.follows hsound₀
  have hlast := h.lastRead hsound₀
  refine ⟨hsame.trans hgame, hsound, ⟨w₀.status, hfirst, fun last => ⟨fun hl => ?_, ?_⟩⟩,
    fun call hc => (hcalls call hc).returned, fun call hc => (hcalls call hc).ends,
    fun hover later w' hlater => ?_⟩
  · exact hl.unique hcalls hlast
  · rintro rfl
    exact hlast
  · exact hlater.idle (hsound.active_eq_none hover)

end

namespace Sample

/-! ## A watcher that is dropped once -/

def ended : Watcher Unit := ⟨(), .zero, .challengerWins, none⟩

/-- The first tick is dropped before the node has answered. The inspector fails in the second, which
then finds that the game is over. -/
def calls : List (Call Unit) :=
  [⟨watcher, [], none, watcher.withCache cache⟩,
    ⟨watcher.withCache cache, [⟨.validate ⟨.zero, 0⟩, .ok ()⟩,
      ⟨.read () .status, .error (Cause.reported "connection refused")⟩,
      ⟨.notify (.inspectionFailed (Cause.reported "connection refused")), ()⟩,
      ⟨.read () .status, .ok .challengerWins⟩], some .challengerWins, ended⟩]

theorem lives_calls : Lives watcher calls ended := by
  refine .cons rfl (.dropped cache (.now _ _)) (.cons rfl (.returns ?_) (.nil ended))
  exact .ask (.ask (.ask (.ask (.done _))))

theorem made_watcher : (Watcher.of ⟨64, 1, 1⟩ () .zero).Yields
    ((Watcher.of ⟨64, 1, 1⟩ () .zero).exchanges (surroundings .zero .zero 0).answer ())
    (.ok watcher) :=
  Program.yields_of_run
    (show (Watcher.of ⟨64, 1, 1⟩ () .zero).run (surroundings .zero .zero 0).answer () =
      some (.ok watcher, ()) from rfl)

end Sample

open Sample in
/-- The status read last is the one that the watcher knows, and it stays as it is. The tick that was
not dropped has read it when the inspector was done. -/
theorem lifecycle_sample : Lives watcher calls ended ∧ LastRead .inProgress calls .challengerWins ∧
    (∀ call ∈ calls, call.returned ≠ none → call.before.Ends call.trace call.after) ∧
    ∀ {later w'}, Lives ended later w' → w' = ended ∧ ∀ call ∈ later, call.trace = [] := by
  obtain ⟨-, -, ⟨first, hfirst, hlast⟩, -, hends, hover⟩ := lifecycle made_watcher lives_calls
  obtain rfl : .inProgress = first := by
    have hhead := Exchange.reply_inj (Option.some.inj hfirst)
    exact Except.ok.inj hhead
  refine ⟨lives_calls, (hlast _).mpr rfl, hends, fun hlater => ?_⟩
  obtain ⟨hsame, hcalls⟩ := hover (by decide) hlater
  exact ⟨hsame, fun call hc => (hcalls call hc).1⟩

end Watchtower
