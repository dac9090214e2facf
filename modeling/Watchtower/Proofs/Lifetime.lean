import Watchtower.Proofs.Equipment
import Watchtower.Proofs.Outcome
import Watchtower.Proofs.Settlement

/-!
# A game is challenged once

A game whose claims stay what they are is watched for as long as one likes. Every read and every
submission may fail, and a submission may land or not. The node answers with outputs of one chain,
and a claim that is challenged stays so.

* `Signalled i cache trace index` : how an inspector comes to signal a challenge: it detects the
  fault at `index`, and the one flag that it reads is that of this claim, which is not set;
* `Watches w ticks` : the ticks of a watcher one after another, each with its moments. At a moment
  there is an exchange, and the flags of the claims are what they are;
* `Stands` : the node and the game throughout;
* `challenged_once` : all challenges of a watcher are of one claim. A tick that is told that it is
  challenged submits none, and so does every tick that begins when it is.
-/

namespace Watchtower

open Work OutputCache

section
variable {γ : Type} {root : UInt64 → Hash} {game : γ}
  {view : (what : Read) → Except Fault (what.Value γ)} {i : Inspector γ} {cache c : OutputCache}
  {trace : List (Exchange (Watch γ))} {index : UInt64}

/-! ## How a challenge comes about -/

/-- Whether a claim is challenged is asked. -/
def Watch.Ask.OfFlag : Watch.Ask γ → Prop
  | .read _ what => what.OfFlag
  | _ => False

/-- A trace in which a flag is read only as `e`. -/
def OnlyFlag (e : Exchange (Watch γ)) (trace : List (Exchange (Watch γ))) : Prop :=
  ∀ e' ∈ trace, e'.ask.OfFlag → e' = e

theorem OnlyFlag.append {e : Exchange (Watch γ)} {first second : List (Exchange (Watch γ))}
    (h : OnlyFlag e first) (h' : OnlyFlag e second) : OnlyFlag e (first ++ second) := by
  intro e' he
  rcases List.mem_append.mp he with he | he
  · exact h e' he
  · exact h' e' he

theorem onlyFlag_of_asks {α : Type} {x : Work γ α} {result : Except Fault α}
    {e : Exchange (Watch γ)} (h : x.Asks fun q => ¬ q.OfFlag)
    (hy : x.Yields cache trace result c) : OnlyFlag e trace :=
  fun e' he hflag => absurd hflag (h.of_yields hy e' he)

theorem composes_flagless : Composes (γ := γ) fun _ x => x.Asks fun q => ¬ q.OfFlag :=
  composes_asks (fun _ _ h => h) (fun _ => id) id

theorem flagless_of_ofLoading (q : Watch.Ask γ) (h : q.OfLoading) : ¬ q.OfFlag := by
  cases q with
  | read => exact h.elim
  | _ => exact id

theorem flagless_loadOne (block : UInt64) : (loadOne (γ := γ) block).Asks fun q => ¬ q.OfFlag :=
  (asks_loadOne block).imp flagless_of_ofLoading

theorem flagless_loadRange (rounds : Nat) (range : Game.Range) :
    (loadRange (γ := γ) rounds range).Asks fun q => ¬ q.OfFlag :=
  (asks_loadRange rounds range).imp flagless_of_ofLoading

namespace Inspector

/-- An inspection with a finding has detected no fault, or one, and then it has asked for the time and
for the flag of the claim. -/
theorem finding_of_yields {finding : Game.Finding}
    (h : i.inspect.Yields cache trace (.ok finding) c) :
    finding.mismatch = false ∨ ∃ detecting now target challenged,
      i.detect.Yields cache detecting (.ok (some target)) c ∧
      trace = detecting ++ [⟨.now, now⟩, ⟨.read i.game (.challenged target), .ok challenged⟩] ∧
      finding = ⟨true, target, challenged, i.window.hasPassed now⟩ := by
  obtain ⟨fault, c₁, detecting, after, rfl, hdetect, hafter⟩ := yields_bind_ok_iff.mp h
  obtain ⟨now, c₂, asking, reading, rfl, hnow, hread⟩ := yields_bind_ok_iff.mp hafter
  obtain ⟨_, rfl, htime, rfl⟩ := Work.yields_ask_iff.mp hnow
  obtain rfl := Except.ok.inj htime
  cases fault with
  | none =>
    obtain ⟨-, hfinding, -⟩ := yields_pure_iff.mp hread
    obtain rfl := Except.ok.inj hfinding
    exact .inl rfl
  | some target =>
    obtain ⟨challenged, _, rfl, hfound⟩ := yields_read_bind_ok_iff.mp hread
    obtain ⟨rfl, hfinding, rfl⟩ := yields_pure_iff.mp hfound
    obtain rfl := Except.ok.inj hfinding
    exact .inr ⟨detecting, now, target, challenged, hdetect, rfl, rfl⟩

structure Signalled (i : Inspector γ) (cache : OutputCache) (trace : List (Exchange (Watch γ)))
    (index : UInt64) : Prop where
  detected : ∃ detecting c, i.detect.Yields cache detecting (.ok (some index)) c ∧
    ∀ e ∈ detecting, e ∈ trace
  unchallenged : ⟨.read i.game (.challenged index), .ok false⟩ ∈ trace
  once : OnlyFlag ⟨.read i.game (.challenged index), .ok false⟩ trace

theorem flagless_detect (i : Inspector γ) : i.detect.Asks fun q => ¬ q.OfFlag :=
  composes_flagless.detectFault (flagless_loadOne _) (flagless_loadRange _ _) i.game i.head

theorem flagless_ancestorsSound (i : Inspector γ) (rounds : Nat) (next : Option γ) :
    (i.ancestorsSound rounds next).Asks fun q => ¬ q.OfFlag :=
  composes_flagless.ancestorsSound flagless_loadOne flagless_loadRange i rounds next

theorem Signalled.of_signal {actions : List Game.Action}
    (h : i.signal.Yields cache trace (.ok actions) c) (hm : .challenge index ∈ actions) :
    i.Signalled cache trace index := by
  obtain ⟨finding, c₁, inspecting, walking, rfl, hinspect, hwalk⟩ := yields_bind_ok_iff.mp h
  rcases finding_of_yields hinspect with hclean | ⟨detecting, now, target, challenged, hdetect, rfl, rfl⟩
  · have hverdict : finding.verdict = .noFault := by simp [Game.Finding.verdict, hclean]
    rw [hverdict] at hwalk
    obtain ⟨-, hactions, -⟩ := yields_pure_iff.mp hwalk
    obtain rfl := Except.ok.inj hactions
    exact nomatch hm
  cases challenged with
  | true =>
    obtain ⟨-, hactions, -⟩ := yields_pure_iff.mp hwalk
    obtain rfl := Except.ok.inj hactions
    exact nomatch hm
  | false =>
  cases hlate : i.window.hasPassed now with
  | true =>
    rw [hlate] at hwalk
    obtain ⟨_, _, _, _, -, -, hnothing⟩ := yields_bind_ok_iff.mp hwalk
    obtain ⟨-, hactions, -⟩ := yields_pure_iff.mp hnothing
    obtain rfl := Except.ok.inj hactions
    exact nomatch hm
  | false =>
  rw [hlate] at hwalk
  obtain ⟨parent, rest, rfl, hparent⟩ := yields_read_bind_ok_iff.mp hwalk
  obtain ⟨sound, c₂, ancestry, _, rfl, hsound, hsignalled⟩ := yields_bind_ok_iff.mp hparent
  obtain ⟨rfl, hactions, rfl⟩ := yields_pure_iff.mp hsignalled
  obtain rfl := Except.ok.inj hactions
  cases sound with
  | false => exact nomatch hm
  | true =>
  obtain rfl : index = target := by simpa using hm
  constructor
  · exact ⟨detecting, _, hdetect, fun e he => by simp [he]⟩
  · simp
  · refine OnlyFlag.append (OnlyFlag.append (onlyFlag_of_asks i.flagless_detect hdetect) ?_) ?_
    · simp [OnlyFlag, Watch.Ask.OfFlag]
    · have hwalked := onlyFlag_of_asks (e := ⟨.read i.game (.challenged index), .ok false⟩)
        (flagless_ancestorsSound i i.rounds parent) hsound
      simpa [OnlyFlag, Watch.Ask.OfFlag, Read.OfFlag] using hwalked

theorem settlement_of_yields {succeeded : Bool} {settling : List Game.Action}
    (h : (i.settlement succeeded).Yields cache trace (.ok settling) c) :
    c = cache ∧ ∀ action ∈ settling, action = .resolveClaim := by
  cases succeeded with
  | true =>
    obtain ⟨-, hsettling, rfl⟩ := yields_pure_iff.mp h
    obtain rfl := Except.ok.inj hsettling
    exact ⟨rfl, fun _ ha => nomatch ha⟩
  | false =>
    obtain ⟨settles, _, -, hread⟩ := yields_read_bind_ok_iff.mp h
    obtain ⟨-, hsettling, rfl⟩ := yields_pure_iff.mp hread
    obtain rfl := Except.ok.inj hsettling
    refine ⟨rfl, fun action ha => ?_⟩
    cases settles with
    | true => exact List.mem_singleton.mp ha
    | false => exact nomatch ha

theorem ends_of_yields {ends : Bool} (h : i.ends.Yields cache trace (.ok ends) c) : c = cache := by
  obtain ⟨now, _, _, _, -, hnow, hread⟩ := yields_bind_ok_iff.mp h
  obtain ⟨_, -, -, rfl⟩ := Work.yields_ask_iff.mp hnow
  split at hread
  · exact (yields_read_iff.mp hread).2
  · exact (yields_pure_iff.mp hread).2.2

theorem Signalled.prepend {first : List (Exchange (Watch γ))} (h : i.Signalled cache trace index)
    (hfirst : ∀ e ∈ first, ¬ e.ask.OfFlag) : i.Signalled cache (first ++ trace) index := by
  obtain ⟨detecting, c, hdetect, hmem⟩ := h.detected
  constructor
  · exact ⟨detecting, c, hdetect, fun e he => List.mem_append_right first (hmem e he)⟩
  · exact List.mem_append_right first h.unchallenged
  · exact OnlyFlag.append (fun e he hflag => absurd hflag (hfirst e he)) h.once

/-- Only after the settlement of challenges, which leaves the cache as it is, is a challenge
signalled. -/
theorem Signalled.of_act {actions : List Game.Action}
    (h : i.act.Yields cache trace (.ok actions) c) (hm : .challenge index ∈ actions) :
    i.Signalled cache trace index := by
  obtain ⟨status, _, rfl, hgoes⟩ := yields_read_bind_ok_iff.mp h
  split at hgoes
  · obtain ⟨-, hactions, -⟩ := yields_pure_iff.mp hgoes
    obtain rfl := Except.ok.inj hactions
    exact nomatch hm
  obtain ⟨succeeded, _, rfl, hsettles⟩ := yields_read_bind_ok_iff.mp hgoes
  obtain ⟨settling, _, settlement, _, rfl, hsettling, hends⟩ := yields_bind_ok_iff.mp hsettles
  obtain ⟨rfl, hresolves⟩ := settlement_of_yields hsettling
  have hsettled : .challenge index ∉ settling := fun hs => nomatch hresolves _ hs
  obtain ⟨ends, _, ending, _, rfl, hending, hrest⟩ := yields_bind_ok_iff.mp hends
  obtain rfl := ends_of_yields hending
  cases ends with
  | true =>
    obtain ⟨-, hactions, -⟩ := yields_pure_iff.mp hrest
    obtain rfl := Except.ok.inj hactions
    exact absurd hm (by simp [hsettled])
  | false =>
  cases succeeded with
  | true =>
    obtain ⟨-, hactions, -⟩ := yields_pure_iff.mp hrest
    obtain rfl := Except.ok.inj hactions
    exact absurd hm hsettled
  | false =>
  obtain ⟨signalled, _, signalling, _, rfl, hsignal, hboth⟩ := yields_bind_ok_iff.mp hrest
  obtain ⟨rfl, hactions, rfl⟩ := yields_pure_iff.mp hboth
  obtain rfl := Except.ok.inj hactions
  have hsignalled := Signalled.of_signal hsignal ((List.mem_append.mp hm).resolve_left hsettled)
  rw [List.append_nil]
  change i.Signalled _ ([_, _] ++ (settlement ++ (ending ++ signalling))) index
  refine Signalled.prepend ((hsignalled.prepend ?_).prepend ?_) ?_
  · exact (composes_flagless.ends i).of_yields hending
  · exact (composes_flagless.settlement i false).of_yields hsettling
  · simp [Watch.Ask.OfFlag, Read.OfFlag]

end Inspector

/-! ## A tick -/

theorem flagless_perform (address : Address) (actions : List Game.Action) :
    (Watcher.perform address actions).Asks fun q : Watch.Ask γ => ¬ q.OfFlag := by
  induction actions with
  | nil => trivial
  | cons action actions ih =>
    refine ⟨id, fun reply => ?_⟩
    cases reply with
    | ok _ => exact ih
    | error fault => exact ⟨id, fun _ => ih⟩

theorem flagless_of_ofFinish (q : Watch.Ask γ) (h : Watcher.OfFinish q) : ¬ q.OfFlag := by
  cases q with
  | read g what => cases what <;> first | exact id | exact h.elim
  | _ => exact id

/-- What a detection comes to in which nothing is told but of the chain and of the game as it is. -/
theorem expected_of_detect {detecting : List (Exchange (Watch γ))} (hc : cache.Holds (OfChain root))
    (hserves : ∀ e ∈ detecting, Serves (OfChain root) e.ask e.reply)
    (htells : ∀ e ∈ detecting, Tells i.game view (fun _ => True) e.ask e.reply)
    (hy : i.detect.Yields cache detecting (.ok (some index)) c) :
    expected root view i.range i.head = .ok (some index) := by
  have hfails {α : Type} (x : Work γ α) : x.FailsAs (fun q reply =>
      Serves (OfChain root) q reply ∧ Tells i.game view (fun _ => True) q reply) fun _ => True :=
    fun cache => Program.meets_of_forall _ fun outcome => by
      rcases outcome with _ | ⟨r, c⟩
      · trivial
      · exact fun _ _ => trivial
  obtain ⟨-, hr | ⟨fault, -, hr⟩⟩ := (upholds_detectFault (fun _ _ h => h.2) (fun _ _ h => h.1)
    (hfails _) (hfails _) (fun _ h => h) hc).of_yields hy fun e he => ⟨hserves e he, htells e he⟩
  · exact hr.symm
  · exact nomatch hr

/-- Whenever the watcher is at work, it is with that inspector and with outputs of the chain. -/
def Watcher.WorksWith (root : UInt64 → Hash) (fitted : Option (Inspector γ)) (w : Watcher γ) :
    Prop :=
  ∀ i cache, w.active = some (i, cache) → fitted = some i ∧ cache.Holds (OfChain root)

section
variable {w w' : Watcher γ} {fitted : Option (Inspector γ)}

theorem Watcher.WorksWith.act {acting : List (Exchange (Watch γ))}
    {result : Except Fault (List Game.Action)} (hw : w.WorksWith root fitted)
    (hactive : w.active = some (i, cache)) (hy : i.act.Yields cache acting result c)
    (hserves : ∀ e ∈ acting, Serves (OfChain root) e.ask e.reply) :
    fitted = some i ∧ c.Holds (OfChain root) := by
  obtain ⟨hi, hc⟩ := hw i cache hactive
  exact ⟨hi, (keeps_of_use number_of_ofChain (.act i)).of_yields hc hy hserves⟩

theorem Watcher.Finishes.worksWith (h : Watcher.Finishes w i c trace w') (hi : fitted = some i)
    (hc : c.Holds (OfChain root)) : w'.WorksWith root fitted := by
  intro i' cache hactive
  rcases h.active with hsome | hnone
  · obtain ⟨rfl, rfl⟩ := Prod.mk.inj (Option.some.inj (hsome.symm.trans hactive))
    exact ⟨hi, hc⟩
  · exact nomatch hnone.symm.trans hactive

/-- A tick leaves the watcher at work as it was, whatever came of it. -/
theorem Watcher.Passes.worksWith (h : Watcher.Passes w trace w') (hw : w.WorksWith root fitted)
    (hserves : ∀ e ∈ trace, Serves (OfChain root) e.ask e.reply) :
    w'.WorksWith root fitted ∧ w'.address = w.address := by
  cases h with
  | idle _ => exact ⟨hw, rfl⟩
  | behind _ => exact ⟨hw, rfl⟩
  | failed hactive hacting hfinish =>
    obtain ⟨hi, hc⟩ := hw.act hactive hacting fun e he =>
      hserves e (List.mem_cons_of_mem _ (List.mem_append_left _ he))
    exact ⟨hfinish.worksWith hi hc, hfinish.address⟩
  | acted hactive hacting _ hfinish =>
    obtain ⟨hi, hc⟩ := hw.act hactive hacting fun e he =>
      hserves e (List.mem_cons_of_mem _ (List.mem_append_left _ he))
    exact ⟨hfinish.worksWith hi hc, hfinish.address⟩

/-- A watcher starts with an inspector of its game and an empty cache. -/
theorem Watcher.worksWith_of {settings : Settings} {address : Address}
    (h : (Watcher.of settings game address).Yields trace (.ok w)) :
    w.address = address ∧ w.WorksWith root (w.active.map Prod.fst) ∧
      ∀ i, w.active.map Prod.fst = some i → i.game = game := by
  have hmeets : (Watcher.of settings game address).Meets (fun _ _ => True) _ := Watcher.meets_of
  obtain ⟨-, haddress, hequipped⟩ := hmeets.of_yields h (fun _ _ => trivial) w rfl
  refine ⟨haddress, fun i cache hactive => ⟨?_, ?_⟩, fun i hi => ?_⟩
  · rw [hactive]
    rfl
  · exact holds_of (hequipped i cache hactive).2.cache
  · obtain ⟨⟨_, cache⟩, hactive, rfl⟩ := Option.map_eq_some_iff.mp hi
    exact (hequipped _ cache hactive).2.watches

/-- The challenges that a tick submits are of the claim expected to be faulty. It has read one flag,
and that claim was not challenged. -/
theorem Watcher.Passes.challenge_submitted (h : Watcher.Passes w trace w')
    (hw : w.WorksWith root fitted) (hgame : ∀ i, fitted = some i → i.game = game)
    (hserves : ∀ e ∈ trace, Serves (OfChain root) e.ask e.reply)
    (htells : ∀ e ∈ trace, Tells game view (fun _ => True) e.ask e.reply) {address : Address}
    (hm : (address, .challenge index) ∈ submissions trace) :
    address = w.address ∧
      (∃ i, fitted = some i ∧ expected root view i.range i.head = .ok (some index)) ∧
      ⟨.read game (.challenged index), .ok false⟩ ∈ trace ∧
      OnlyFlag ⟨.read game (.challenged index), .ok false⟩ trace := by
  cases h with
  | idle _ => exact nomatch hm
  | behind _ => exact nomatch hm
  | failed _ hacting hfinish =>
    rw [(Watcher.submissions_failed hacting hfinish).1] at hm
    exact nomatch hm
  | @acted i _ _ _ acting sending finishing _ hactive hacting hsending hfinish =>
    rw [(Watcher.submissions_acted hacting hsending hfinish).1] at hm
    obtain ⟨action, haction, heq⟩ := List.mem_map.mp hm
    obtain ⟨haddress, rfl⟩ := Prod.mk.inj heq
    obtain ⟨hi, hc⟩ := hw i _ hactive
    obtain rfl := hgame i hi
    have hsignalled := Inspector.Signalled.of_act hacting haction
    obtain ⟨detecting, c, hdetect, hdetecting⟩ := hsignalled.detected
    have hin (e : Exchange (Watch γ)) (he : e ∈ acting) :
        e ∈ ⟨.validate i.head, .ok ()⟩ :: (acting ++ (sending ++ finishing)) :=
      List.mem_cons_of_mem _ (List.mem_append_left _ he)
    refine ⟨haddress.symm, ⟨i, hi, ?_⟩, hin _ hsignalled.unchallenged, ?_⟩
    · exact expected_of_detect hc (fun e he => hserves e (hin e (hdetecting e he)))
        (fun e he => htells e (hin e (hdetecting e he))) hdetect
    · change OnlyFlag _ ([_] ++ (acting ++ (sending ++ finishing)))
      refine OnlyFlag.append ?_ (hsignalled.once.append (OnlyFlag.append ?_ ?_))
      · simp [OnlyFlag, Watch.Ask.OfFlag]
      · exact fun e he hflag => absurd hflag ((flagless_perform _ _).of_yields hsending e he)
      · exact fun e he hflag => absurd hflag (flagless_of_ofFinish _ (hfinish.asks e he))

end

/-! ## All ticks of a watcher -/

/-- An exchange, and which claims are challenged on chain when it takes place. -/
structure Moment (γ : Type) where
  exchange : Exchange (Watch γ)
  challenged : UInt64 → Prop

/-- The exchanges of a tick. -/
abbrev Moment.exchanges (tick : List (Moment γ)) : List (Exchange (Watch γ)) := tick.map exchange

inductive Watches : Watcher γ → List (List (Moment γ)) → Prop
  | nil (w : Watcher γ) : Watches w []
  | cons {w w' : Watcher γ} {tick : List (Moment γ)} {ticks : List (List (Moment γ))}
      (h : w.tick.Yields (Moment.exchanges tick) w') (rest : Watches w' ticks) : Watches w (tick :: ticks)

/-- The node has outputs of the chain, the game shows what it does, its flags are what is read of
them, and a flag that is set stays so. -/
structure Stands (root : UInt64 → Hash) (game : γ)
    (view : (what : Read) → Except Fault (what.Value γ)) (moments : List (Moment γ)) : Prop where
  serves : ∀ m ∈ moments, Serves (OfChain root) m.exchange.ask m.exchange.reply
  tells : ∀ m ∈ moments, Tells game view (fun _ => True) m.exchange.ask m.exchange.reply
  flags : ∀ m ∈ moments, ∀ index flag,
    m.exchange = ⟨.read game (.challenged index), .ok flag⟩ → (flag = true ↔ m.challenged index)
  lasting : moments.Pairwise fun m m' => ∀ index, m.challenged index → m'.challenged index

/-- In each tick of all, what is submitted is submitted as `Passes.challenge_submitted` says. -/
theorem Watches.challenge_submitted {w : Watcher γ} {fitted : Option (Inspector γ)}
    {ticks : List (List (Moment γ))} (h : Watches w ticks) (hw : w.WorksWith root fitted)
    (hgame : ∀ i, fitted = some i → i.game = game)
    (hserves : ∀ m ∈ ticks.flatten, Serves (OfChain root) m.exchange.ask m.exchange.reply)
    (htells : ∀ m ∈ ticks.flatten,
      Tells game view (fun _ => True) m.exchange.ask m.exchange.reply) :
    ∀ tick ∈ ticks, ∀ address index, (address, .challenge index) ∈ submissions (Moment.exchanges tick) →
      address = w.address ∧
      (∃ i, fitted = some i ∧ expected root view i.range i.head = .ok (some index)) ∧
      ⟨.read game (.challenged index), .ok false⟩ ∈ Moment.exchanges tick ∧
      OnlyFlag ⟨.read game (.challenged index), .ok false⟩ (Moment.exchanges tick) := by
  induction h with
  | nil => exact fun _ hm => nomatch hm
  | @cons w w' tick ticks hy rest ih =>
    rw [List.flatten_cons, List.forall_mem_append] at hserves htells
    have hserved : ∀ e ∈ Moment.exchanges tick, Serves (OfChain root) e.ask e.reply :=
      List.forall_mem_map.mpr hserves.1
    have htold : ∀ e ∈ Moment.exchanges tick, Tells game view (fun _ => True) e.ask e.reply :=
      List.forall_mem_map.mpr htells.1
    have hpasses := Watcher.Passes.of_yields hy
    obtain ⟨hw', haddress⟩ := hpasses.worksWith hw hserved
    refine List.forall_mem_cons.mpr ⟨fun address index hm => ?_, ?_⟩
    · exact hpasses.challenge_submitted hw hgame hserved htold hm
    · rw [← haddress]
      exact ih hw' hserves.2 htells.2

/-- A flag that is read as unset in a tick was not set when the tick began, and not before. -/
theorem Stands.not_challenged {before after : List (List (Moment γ))} {tick : List (Moment γ)}
    (h : Stands root game view (before ++ tick :: after).flatten)
    (hread : ⟨.read game (.challenged index), .ok false⟩ ∈ Moment.exchanges tick) :
    ∀ m ∈ before.flatten ++ tick.head?.toList, ¬ m.challenged index := by
  obtain ⟨m, hm, hexchange⟩ := List.mem_map.mp hread
  rw [List.flatten_append, List.flatten_cons] at h
  have hin : m ∈ before.flatten ++ (tick ++ after.flatten) :=
    List.mem_append_right _ (List.mem_append_left _ hm)
  have hunset : ¬ m.challenged index := fun hset =>
    Bool.false_ne_true ((h.flags m hin index false hexchange).mpr hset)
  obtain ⟨-, hafter, hearlier⟩ := List.pairwise_append.mp h.lasting
  obtain ⟨htick, -, -⟩ := List.pairwise_append.mp hafter
  intro m₀ hm₀ hset
  rcases List.mem_append.mp hm₀ with hm₀ | hm₀
  · exact hunset (hearlier m₀ hm₀ m (List.mem_append_left _ hm) index hset)
  · cases tick with
    | nil => exact nomatch hm₀
    | cons first rest =>
      obtain rfl : m₀ = first := by simpa using hm₀
      rcases List.mem_cons.mp hm with rfl | hm
      · exact hunset hset
      · exact hunset ((List.pairwise_cons.mp htick).1 m hm index hset)

/-- All challenges that a watcher submits are of one and the same claim of its game. It submits none
in a tick in which it is told that this claim is challenged, or that begins when it is. -/
theorem challenged_once {settings : Settings} {address : Address} {w : Watcher γ}
    {making : List (Exchange (Watch γ))} {ticks : List (List (Moment γ))}
    (hmade : (Watcher.of settings game address).Yields making (.ok w)) (hrun : Watches w ticks)
    (hstands : Stands root game view ticks.flatten) :
    ∃ index, ∀ before tick after, ticks = before ++ tick :: after →
      (∀ a j, (a, .challenge j) ∈ submissions (Moment.exchanges tick) → a = address ∧ j = index) ∧
      (⟨.read game (.challenged index), .ok true⟩ ∈ Moment.exchanges tick ∨
          (∃ m ∈ before.flatten ++ tick.head?.toList, m.challenged index) →
        ∀ a j, (a, .challenge j) ∉ submissions (Moment.exchanges tick)) := by
  obtain ⟨haddress, hw, hgame⟩ : _ ∧ w.WorksWith root _ ∧ _ := Watcher.worksWith_of hmade
  have hsubmitted := hrun.challenge_submitted hw hgame hstands.serves hstands.tells
  obtain ⟨index, hindex⟩ : ∃ index, ∀ i, w.active.map Prod.fst = some i → ∀ j,
      expected root view i.range i.head = .ok (some j) → j = index := by
    by_cases hfault : ∃ i j, w.active.map Prod.fst = some i ∧
        expected root view i.range i.head = .ok (some j)
    · obtain ⟨i, j, hi, hj⟩ := hfault
      refine ⟨j, fun i' hi' j' hj' => ?_⟩
      obtain rfl := Option.some.inj (hi.symm.trans hi')
      exact Option.some.inj (Except.ok.inj (hj'.symm.trans hj))
    · exact ⟨0, fun i hi j hj => absurd ⟨i, j, hi, hj⟩ hfault⟩
  refine ⟨index, ?_⟩
  rintro before tick after rfl
  have htick : tick ∈ before ++ tick :: after := List.mem_append_right _ List.mem_cons_self
  constructor
  · intro a j hm
    obtain ⟨ha, ⟨i, hi, hexpected⟩, -⟩ := hsubmitted tick htick a j hm
    exact ⟨ha.trans haddress, hindex i hi j hexpected⟩
  · intro hchallenged a j hm
    obtain ⟨-, ⟨i, hi, hexpected⟩, hread, honly⟩ := hsubmitted tick htick a j hm
    obtain rfl := hindex i hi j hexpected
    rcases hchallenged with htold | ⟨m, hmoment, hset⟩
    · exact nomatch Exchange.reply_inj (honly _ htold trivial)
    · exact hstands.not_challenged hread m hmoment hset

end

namespace Sample

/-! ## A challenge that lands

In the first tick nothing is challenged; when the second one begins the last claim is. -/

def contested (flag : Bool) : Surroundings Unit Unit where
  chain game what := match what with
    | .challenged index => .ok (flag && index == 1)
    | what => chain (.ofNat 8) .zero game what
  clock := 5
  node := node

/-- The moments of a program during which the flags stay as they are. -/
def moments {α : Type} (flag : Bool) (p : Program (Watch Unit) α) : List (Moment Unit) :=
  (p.exchanges (contested flag).answer ()).map fun e => ⟨e, fun index => flag = true ∧ index = 1⟩

theorem exchanges_moments {α : Type} (flag : Bool) (p : Program (Watch Unit) α) :
    Moment.exchanges (moments flag p) = p.exchanges (contested flag).answer () := by
  simp [Moment.exchanges, moments, Function.comp_def]

theorem contested_truthful (flag : Bool) : (contested flag).Truthful root := by
  intro q s
  cases q with
  | fetch what => exact serves_fetched what
  | _ => trivial

theorem contested_tells (flag : Bool) (q : Watch.Ask Unit) (s : Unit) :
    Tells () (chain (.ofNat 8) .zero ()) (fun _ => True) q ((contested flag).answer q s).1 := by
  cases q with
  | read game what =>
    rintro - hlasting
    cases what <;> first | exact .inl rfl | exact hlasting.elim
  | _ => trivial

/-- The answer to whether a claim is challenged. -/
def Flagged (flag : Bool) : (Watch Unit).Rely
  | .read _ (.challenged index), reply => reply = .ok (flag && index == 1)
  | _, _ => True

theorem contested_flagged (flag : Bool) (q : Watch.Ask Unit) (s : Unit) :
    Flagged flag q ((contested flag).answer q s).1 := by
  cases q with
  | read game what => cases what <;> first | rfl | trivial
  | _ => trivial

theorem stands_moments {α β : Type} (p : Program (Watch Unit) α) (q : Program (Watch Unit) β) :
    Stands root () (chain (.ofNat 8) .zero ()) [moments false p, moments true q].flatten := by
  have heach {P : Moment Unit → Prop} (hfirst : ∀ m ∈ moments false p, P m)
      (hsecond : ∀ m ∈ moments true q, P m) : ∀ m ∈ [moments false p, moments true q].flatten, P m := by
    simpa [or_imp, forall_and] using ⟨hfirst, hsecond⟩
  have hflags {γ : Type} {flag : Bool} (r : Program (Watch Unit) γ) : ∀ m ∈ moments flag r,
      ∀ index b, m.exchange = ⟨.read () (.challenged index), .ok b⟩ →
        (b = true ↔ m.challenged index) := by
    refine List.forall_mem_map.mpr fun e he index b hexchange => ?_
    have hreply := Program.exchanges_rely (contested_flagged flag) e he
    obtain rfl : e = _ := hexchange
    obtain rfl := Except.ok.inj hreply
    simp
  constructor
  · exact heach (List.forall_mem_map.mpr (Program.exchanges_rely (contested_truthful false)))
      (List.forall_mem_map.mpr (Program.exchanges_rely (contested_truthful true)))
  · exact heach (List.forall_mem_map.mpr (Program.exchanges_rely (contested_tells false)))
      (List.forall_mem_map.mpr (Program.exchanges_rely (contested_tells true)))
  · exact heach (hflags p) (hflags q)
  · rw [List.flatten_cons, List.flatten_cons, List.flatten_nil, List.append_nil]
    refine List.pairwise_append.mpr ⟨?_, ?_, ?_⟩
    · exact List.pairwise_map.mpr (List.pairwise_of_forall fun _ _ _ hset => hset)
    · exact List.pairwise_map.mpr (List.pairwise_of_forall fun _ _ _ hset => hset)
    · intro m hm m' _ index hset
      obtain ⟨e, -, rfl⟩ := List.mem_map.mp hm
      exact nomatch hset.1

/-- The watcher after the first tick. -/
def settled : Watcher Unit := ⟨(), .zero, .inProgress, some (inspector, ⟨1, 64, [(1, output 1)]⟩)⟩

theorem watches_contested :
    Watches watcher [moments false watcher.tick, moments true settled.tick] := by
  have hfirst : watcher.tick.Yields (Moment.exchanges (moments false watcher.tick)) settled := by
    rw [exchanges_moments]
    exact Program.yields_of_run
      (show watcher.tick.run (contested false).answer () = some (settled, ()) from rfl)
  have hsecond : settled.tick.Yields (Moment.exchanges (moments true settled.tick)) settled := by
    rw [exchanges_moments]
    exact Program.yields_of_run
      (show settled.tick.run (contested true).answer () = some (settled, ()) from rfl)
  exact .cons hfirst (.cons hsecond (.nil settled))

theorem made_contested : (Watcher.of ⟨64, 1, 1⟩ () .zero).Yields
    ((Watcher.of ⟨64, 1, 1⟩ () .zero).exchanges (contested false).answer ()) (.ok watcher) :=
  Program.yields_of_run
    (show (Watcher.of ⟨64, 1, 1⟩ () .zero).run (contested false).answer () = some (.ok watcher, ())
      from rfl)

end Sample

open Sample in
/-- The first tick submits a challenge of the last claim, and the second none, since it has
landed. -/
theorem challenged_once_sample :
    submissions (Moment.exchanges (moments false watcher.tick)) = [(.zero, .challenge 1)] ∧
      ∀ a j, (a, .challenge j) ∉ submissions (Moment.exchanges (moments true settled.tick)) := by
  have hfirst : submissions (Moment.exchanges (moments false watcher.tick)) = [(.zero, .challenge 1)] := rfl
  obtain ⟨index, h⟩ := challenged_once made_contested watches_contested (stands_moments _ _)
  obtain ⟨-, rfl⟩ := (h [] _ _ rfl).1 .zero 1 (by rw [hfirst]; exact List.mem_singleton_self _)
  refine ⟨hfirst, (h [_] _ [] rfl).2 (.inr ?_)⟩
  refine ⟨⟨⟨.validate ⟨.zero, 0⟩, .ok ()⟩, fun index => true = true ∧ index = 1⟩, ?_, rfl, rfl⟩
  exact List.mem_append_right _ (show _ ∈ [_] from List.mem_singleton_self _)

end Watchtower
