import Watchtower.Proofs.Ancestry

/-!
# The walk along the games that a game builds on

* `env.Detecting ancestor range` : what is asked while a fault is looked for in an ancestor, over a
  range (`asks_detectFault`, `asks_of_detectIn`);
* `env.Lineage next ancestors` : the games from `next` on, each the parent of the one before it. No
  game is its own ancestor (`Lineage.nodup`);
* `Judged` : what is found in an ancestor, its status and, while it is in progress, whether a
  detection over its range finds a fault in it;
* `decides`, `soundness` : which ancestors end the walk, and what it then comes to
  (`soundness_eq_true_iff`);
* `env.Visiting` : what may be asked about an ancestor that is met;
* `Walks` : the work comes to what the ancestors decide and visits none beyond. One ancestor is
  `walks_of_decides` or `Walks.cons`, and a lineage is `walks_of_lineage`, by induction on it;
* `i.walk` : the walk from the inspector's own game (`signal_eq_walk`); `walk_decided` says what it
  comes to and asks.
-/

namespace Watchtower

open Work OutputCache

/-! ## What a detection asks -/

section
variable {γ σ α : Type} {env : Surroundings γ σ} {ancestor : γ} {range : Game.Range}
  {may : Watch.Ask γ → Prop}

def Surroundings.Detecting (env : Surroundings γ σ) (ancestor : γ) (range : Game.Range) :
    Watch.Ask γ → Prop
  | .read game what => game = ancestor ∧ what ≠ .status ∧ what ≠ .parent
  | .fetch (.header hash) => env.chain ancestor .l1Head = .ok hash
  | .fetch (.output block) => block = range.last
  | .fetch (.outputs blocks) => blocks ⊆ range.positions
  | .stopping | .pause .. | .notify _ => True
  | _ => False

/-- To look outputs up is to ask nothing, and what is missing is among what was looked up. -/
theorem asks_lookupAll_bind {blocks : List UInt64}
    {f : List Rollup.Output × List UInt64 → Work γ α}
    (hf : ∀ hits missing, missing ⊆ blocks → (f (hits, missing)).Asks may) :
    (lookupAll blocks >>= f).Asks may := by
  induction blocks generalizing f with
  | nil => exact hf [] [] (List.Subset.refl [])
  | cons block blocks ih =>
    rw [lookupAll, Work.bind_assoc]
    refine Asks.bind (fun _ => trivial) fun found => ?_
    rw [Work.bind_assoc]
    refine ih fun hits missing hsub => ?_
    cases found with
    | none => exact hf hits (block :: missing) (List.cons_subset_cons block hsub)
    | some output => exact hf (output :: hits) missing (List.subset_cons_of_subset block hsub)

theorem asks_checkpoint : checkpoint.Asks (env.Detecting ancestor range) := by
  refine Asks.bind (asks_ask trivial) fun stopping => ?_
  split
  · exact asks_fail Cause.cancelled
  · exact asks_pure ()

theorem asks_fetchBatch {blocks : List UInt64} (h : blocks ⊆ range.positions) (rounds : Nat) :
    (fetchBatch blocks rounds).Asks (env.Detecting ancestor range) := by
  induction rounds with
  | zero => exact asks_stuck
  | succ rounds ih =>
    refine Asks.bind asks_checkpoint fun _ => ?_
    refine Asks.bind (asks_ask h) fun reply => ?_
    rcases reply with _ | fault | outputs
    · exact asks_fail Cause.cancelled
    · refine Asks.bind (asks_ask trivial) fun _ => ?_
      refine Asks.bind asks_checkpoint fun _ => ?_
      refine Asks.bind (asks_ask trivial) fun cut => ?_
      cases cut with
      | true => exact asks_fail Cause.cancelled
      | false => exact ih
    · exact asks_pure outputs

theorem asks_accept (outputs : List Rollup.Output) (requested : List UInt64) :
    (accept requested outputs).Asks (env.Detecting ancestor range) := by
  induction outputs generalizing requested with
  | nil => exact asks_pure []
  | cons output outputs ih =>
    rw [accept]
    split
    · exact Asks.bind (fun _ => trivial) fun _ => Asks.bind (ih _) fun _ => asks_pure _
    · exact Asks.bind (asks_ask trivial) fun _ => ih requested

theorem asks_loadRange_positions (rounds : Nat) :
    (loadRange rounds range).Asks (env.Detecting ancestor range) := by
  refine asks_lookupAll_bind fun hits missing hsub => ?_
  have hmissing : (loadMissing rounds missing).Asks (env.Detecting ancestor range) := by
    unfold loadMissing
    split
    · exact asks_pure []
    · exact Asks.bind (asks_fetchBatch hsub rounds) fun outputs => asks_accept outputs missing
  refine Asks.bind hmissing fun fetched => ?_
  unfold arrange
  split
  · exact Asks.bind (asks_ask trivial) fun _ => asks_pure _
  · exact asks_pure _

theorem asks_loadOne_last : (loadOne range.last).Asks (env.Detecting ancestor range) := by
  refine Asks.bind (fun _ => trivial) fun found => ?_
  cases found with
  | some output => exact asks_pure output
  | none =>
    refine Asks.bind asks_checkpoint fun _ => ?_
    refine Asks.bind (asks_fetch rfl) fun output => ?_
    exact Asks.bind (fun _ => trivial) fun _ => asks_pure output

theorem asks_detectFault (rounds : Nat) (head : L1.Head) :
    (detectFault rounds ancestor range head).Asks (env.Detecting ancestor range) := by
  have hread (what : Read) (h : what ≠ .status ∧ what ≠ .parent) :
      (read ancestor what).Asks (env.Detecting ancestor range) := asks_read ⟨rfl, h⟩
  refine Asks.bind (hread .rootClaim ⟨nofun, nofun⟩) fun rootClaim => ?_
  refine Asks.bind asks_loadOne_last fun last => ?_
  split
  · exact asks_pure _
  · refine Asks.bind (hread .claimsHash ⟨nofun, nofun⟩) fun committed => ?_
    refine Asks.bind (asks_loadRange_positions rounds) fun outputs => ?_
    split
    · exact asks_pure none
    · refine Asks.bind (Asks.within (hread (.claims head) ⟨nofun, nofun⟩)) fun claimed => ?_
      exact Asks.bind (asks_ofExcept _) fun index => asks_pure _

/-! ## The exchanges of a detection in an ancestor -/

variable {cache : OutputCache} {s : σ}

theorem exchanges_ask_bind {q : Watch.Ask γ} {f : Watch.Reply γ q → Work γ α} :
    ((ask q >>= f) cache).exchanges env.answer s = ⟨q, (env.answer q s).1⟩ ::
      (f (env.answer q s).1 cache).exchanges env.answer (env.answer q s).2 := rfl

theorem ofExcept_ok_bind {β : Type} (a : α) (f : α → Work γ β) :
    (Work.ofExcept (.ok a) >>= f) = f a := rfl

theorem fetch_eq_ask (what : Fetch) : (fetch what : Work γ what.Value) =
    ask (.fetch what) >>= fun reply => Work.ofExcept (reply.getD (.error Cause.cancelled)) := by
  refine congrArg (ask (.fetch what) >>= ·) (funext fun reply => ?_)
  cases reply <;> rfl

theorem exchanges_read_bind {game : γ} {what : Read} {f : what.Value γ → Work γ α}
    {v : what.Value γ} (h : env.chain game what = .ok v) :
    ((read game what >>= f) cache).exchanges env.answer s =
      ⟨.read game what, .ok v⟩ :: (f v cache).exchanges env.answer s := by
  unfold Work.read
  rw [Work.bind_assoc, exchanges_ask_bind, show (env.answer (.read game what) s).1 = _ from h]
  rfl

theorem exchanges_fetch_bind {what : Fetch} {f : what.Value → Work γ α} :
    ((fetch what >>= f) cache).exchanges env.answer s =
      ⟨.fetch what, (env.answer (.fetch what) s).1⟩ ::
        ((Work.ofExcept ((env.answer (.fetch what) s).1.getD (.error Cause.cancelled)) >>= f)
          cache).exchanges env.answer (env.answer (.fetch what) s).2 := by
  rw [fetch_eq_ask, Work.bind_assoc, exchanges_ask_bind]

variable {headers : Hash → L1.Header} {i : Inspector γ} {head : L1.Head}

/-- The detection is made once it is known where the ancestor stands, and asks for no more. -/
theorem asks_of_detectIn (hplaces : i.Places env headers ancestor range head)
    (hresponds : ∀ e ∈ (i.detectIn ancestor cache).exchanges env.answer s,
      Responds headers e.ask e.reply) :
    ∀ e ∈ (i.detectIn ancestor cache).exchanges env.answer s,
      env.Detecting ancestor range e.ask := by
  obtain ⟨first, last, distance, hbounds, hdistance, hrange⟩ := hplaces.range
  obtain ⟨hash, hhash, hhead⟩ := hplaces.head
  unfold Inspector.detectIn at hresponds ⊢
  rw [exchanges_read_bind hbounds] at hresponds ⊢
  dsimp only at hresponds ⊢
  rw [exchanges_read_bind hdistance, hrange, ofExcept_ok_bind, exchanges_read_bind hhash,
    exchanges_fetch_bind] at hresponds ⊢
  simp only [List.forall_mem_cons] at hresponds ⊢
  have hheader : (env.answer (.fetch (.header hash)) s).1 = some (.ok (headers hash)) :=
    hresponds.2.2.2.1
  rw [hheader, Option.getD_some, ofExcept_ok_bind, hhead, ofExcept_ok_bind]
  refine ⟨⟨rfl, nofun, nofun⟩, ⟨rfl, nofun, nofun⟩, ⟨rfl, nofun, nofun⟩, hhash, ?_⟩
  exact (asks_detectFault i.rounds head cache).exchanges _

end

/-! ## The games that a game builds on -/

section
variable {γ σ : Type} {env : Surroundings γ σ} {next : Option γ} {ancestors others : List γ}

inductive Surroundings.Lineage (env : Surroundings γ σ) : Option γ → List γ → Prop
  | nil : env.Lineage none []
  | cons {ancestor : γ} {next : Option γ} {ancestors : List γ}
      (parent : env.chain ancestor .parent = .ok next) (rest : env.Lineage next ancestors) :
      env.Lineage (some ancestor) (ancestor :: ancestors)

namespace Surroundings.Lineage

theorem unique (h : env.Lineage next ancestors) (h' : env.Lineage next others) :
    ancestors = others := by
  induction h generalizing others with
  | nil =>
    cases h'
    rfl
  | cons parent _ ih =>
    cases h' with
    | cons parent' rest' =>
      obtain rfl := Except.ok.inj (parent.symm.trans parent')
      rw [ih rest']

/-- From any game of it on, a lineage is one of that game. -/
theorem from_mem {ancestor : γ} (h : env.Lineage next ancestors) (hmem : ancestor ∈ ancestors) :
    ∃ later, env.Lineage (some ancestor) later ∧ later.length ≤ ancestors.length := by
  induction h with
  | nil => cases hmem
  | @cons first next ancestors parent rest ih =>
    rcases List.mem_cons.mp hmem with rfl | hmem
    · exact ⟨_, .cons parent rest, Nat.le_refl _⟩
    · obtain ⟨later, hlater, hlength⟩ := ih hmem
      exact ⟨later, hlater, Nat.le_succ_of_le hlength⟩

/-- A game among its own ancestors would have no end of them. -/
theorem nodup (h : env.Lineage next ancestors) : ancestors.Nodup := by
  induction h with
  | nil => exact List.nodup_nil
  | @cons ancestor next ancestors parent rest ih =>
    refine List.nodup_cons.mpr ⟨fun hmem => ?_, ih⟩
    obtain ⟨later, hlater, hlength⟩ := rest.from_mem hmem
    have hsame := congrArg List.length (hlater.unique (.cons parent rest))
    rw [List.length_cons] at hsame
    omega

end Surroundings.Lineage

/-! ## What decides the walk -/

variable {root : UInt64 → Hash} {headers : Hash → L1.Header} {i : Inspector γ}
  {status : γ → Game.Status} {fault : γ → Option UInt64} {ancestor : γ}

/-- The ancestor says its status, and while it is in progress a detection comes to a result. -/
structure Judged (env : Surroundings γ σ) (root : UInt64 → Hash) (headers : Hash → L1.Header)
    (i : Inspector γ) (status : γ → Game.Status) (fault : γ → Option UInt64) (ancestor : γ) :
    Prop where
  stands : env.chain ancestor .status = .ok (status ancestor)
  detected : status ancestor = .inProgress → ∃ range head,
    i.Places env headers ancestor range head ∧
    expected root (env.chain ancestor) range head = .ok (fault ancestor)

/-- A game that is over ends the walk, and so does a fault in one that is in progress. -/
def decides (status : γ → Game.Status) (fault : γ → Option UInt64) (ancestor : γ) : Bool :=
  status ancestor ≠ .inProgress ∨ fault ancestor ≠ none

/-- What the walk comes to. Only a game that its defender has won speaks for those built on it. -/
def soundness (status : γ → Game.Status) (fault : γ → Option UInt64) (ancestors : List γ) : Bool :=
  (ancestors.find? (decides status fault)).all fun ancestor => status ancestor = .defenderWins

theorem decides_of_status (h : status ancestor ≠ .inProgress) :
    decides status fault ancestor = true :=
  decide_eq_true (.inl h)

theorem decides_of_fault (h : fault ancestor ≠ none) : decides status fault ancestor = true :=
  decide_eq_true (.inr h)

theorem soundness_cons_of_decides (h : decides status fault ancestor = true) :
    soundness status fault (ancestor :: ancestors) = decide (status ancestor = .defenderWins) := by
  unfold soundness
  rw [List.find?_cons_of_pos h]
  rfl

theorem soundness_cons_of_not_decides (h : ¬ decides status fault ancestor = true) :
    soundness status fault (ancestor :: ancestors) = soundness status fault ancestors := by
  unfold soundness
  rw [List.find?_cons_of_neg h]

theorem soundness_eq_true_iff : soundness status fault ancestors = true ↔
    ∀ ancestor ∈ ancestors.takeWhile (status · ≠ .defenderWins),
      status ancestor = .inProgress ∧ fault ancestor = none := by
  induction ancestors with
  | nil => exact ⟨fun _ => nofun, fun _ => rfl⟩
  | cons ancestor ancestors ih =>
    rw [List.takeWhile_cons]
    by_cases hwon : status ancestor = .defenderWins
    · have hdecides : decides status fault ancestor = true := by simp [decides, hwon]
      rw [soundness_cons_of_decides hdecides, if_neg (by simpa using hwon)]
      exact iff_of_true (decide_eq_true hwon) nofun
    · rw [if_pos (by simpa using hwon), List.forall_mem_cons, ← ih]
      by_cases hdecides : decides status fault ancestor = true
      · rw [soundness_cons_of_decides hdecides, decide_eq_true_iff]
        refine iff_of_false hwon fun ⟨⟨hprogress, hnone⟩, _⟩ => ?_
        simp [decides, hprogress, hnone] at hdecides
      · have hsound : status ancestor = .inProgress ∧ fault ancestor = none := by
          simpa [decides] using hdecides
        rw [soundness_cons_of_not_decides hdecides, and_iff_right hsound]

/-! ## The walk -/

/-- What may be asked about an ancestor that is met. -/
inductive Surroundings.Visiting (env : Surroundings γ σ) (headers : Hash → L1.Header)
    (i : Inspector γ) (status : γ → Game.Status) (fault : γ → Option UInt64) (ancestor : γ) :
    Watch.Ask γ → Prop
  | status : env.Visiting headers i status fault ancestor (.read ancestor .status)
  | detection {range : Game.Range} {head : L1.Head} {q : Watch.Ask γ}
      (hprogress : status ancestor = .inProgress)
      (hplaces : i.Places env headers ancestor range head) (hq : env.Detecting ancestor range q) :
      env.Visiting headers i status fault ancestor q
  | parent (hprogress : status ancestor = .inProgress) (hnone : fault ancestor = none) :
      env.Visiting headers i status fault ancestor (.read ancestor .parent)

variable {cache : OutputCache} {s : σ}

/-- The detection in an ancestor in progress comes to what is found in it. -/
theorem Judged.detects (h : Judged env root headers i status fault ancestor)
    (hprogress : status ancestor = .inProgress) (htruth : env.Truthful root)
    (hrounds : 0 < i.rounds) (hc : cache.Holds (OfChain root))
    (hresponds : ∀ e ∈ (i.detectIn ancestor cache).exchanges env.answer s,
      Responds headers e.ask e.reply) :
    (∃ c t, (i.detectIn ancestor).Gives env cache s (fault ancestor) c t ∧ c.Holds (OfChain root)) ∧
      ∀ e ∈ (i.detectIn ancestor cache).exchanges env.answer s,
        env.Visiting headers i status fault ancestor e.ask := by
  obtain ⟨range, head, hplaces, hexpected⟩ := h.detected hprogress
  obtain ⟨r, c, t, hrun, hholds, rfl⟩ := (Inspector.upholds_detectIn hplaces hrounds hc).runs
    (Inspector.ends_detectIn hrounds) (htruth.grants hresponds)
  rw [hexpected] at hrun
  refine ⟨⟨c, t, hrun, hholds⟩, fun e he => ?_⟩
  exact .detection hprogress hplaces (asks_of_detectIn hplaces hresponds e he)

theorem exchanges_bind_of_gives {α β : Type} {x : Work γ α} {f : α → Work γ β} {a : α}
    {c : OutputCache} {t : σ} (h : x.Gives env cache s a c t) :
    ((x >>= f) cache).exchanges env.answer s =
      (x cache).exchanges env.answer s ++ (f a c).exchanges env.answer t := by
  rw [bind_apply, Program.exchanges_bind, show Program.run .. = _ from h]

theorem mem_exchanges_bind {α β : Type} {x : Work γ α} {f : α → Work γ β} {e : Exchange (Watch γ)}
    (h : e ∈ (x cache).exchanges env.answer s) : e ∈ ((x >>= f) cache).exchanges env.answer s := by
  rw [bind_apply, Program.exchanges_bind]
  exact List.mem_append_left _ h

theorem gives_read_bind_of {β : Type} {game : γ} {what : Read} {f : what.Value γ → Work γ β}
    {v : what.Value γ} {b : β} {cache' : OutputCache} {s' : σ} (h : env.chain game what = .ok v) :
    (read game what >>= f).Gives env cache s b cache' s' ↔ (f v).Gives env cache s b cache' s' := by
  rw [gives_read_bind_iff]
  constructor
  · rintro ⟨v', hv', hf⟩
    obtain rfl := Except.ok.inj (h.symm.trans hv')
    exact hf
  · exact fun hf => ⟨v, h, hf⟩

theorem mem_take_findIdx_succ {α : Type} {p : α → Bool} {a b : α} {l : List α} (h : ¬ p a = true)
    (hmem : b ∈ l.take (l.findIdx p + 1)) : b ∈ (a :: l).take ((a :: l).findIdx p + 1) := by
  rw [List.findIdx_cons, Bool.eq_false_iff.mpr h]
  exact List.mem_cons_of_mem a hmem

/-- The work comes to what the ancestors decide, and visits none beyond the first that does. -/
structure Walks (env : Surroundings γ σ) (headers : Hash → L1.Header) (i : Inspector γ)
    (status : γ → Game.Status) (fault : γ → Option UInt64) (ancestors : List γ) (x : Work γ Bool)
    (cache : OutputCache) (s : σ) : Prop where
  gives : ∃ cache' s', x.Gives env cache s (soundness status fault ancestors) cache' s'
  visits : ∀ e ∈ (x cache).exchanges env.answer s,
    ∃ a ∈ ancestors.take (ancestors.findIdx (decides status fault) + 1),
      env.Visiting headers i status fault a e.ask

/-- An ancestor that decides is the last one that is asked about. -/
theorem walks_of_decides (h : decides status fault ancestor = true) :
    Walks env headers i status fault (ancestor :: ancestors)
      (pure (decide (status ancestor = .defenderWins))) cache s where
  gives := by
    rw [soundness_cons_of_decides h]
    exact ⟨cache, s, rfl⟩
  visits := List.forall_mem_nil _

/-- And from one that does not, the walk goes on to its parent. -/
theorem Walks.cons (hprogress : status ancestor = .inProgress)
    (hnone : fault ancestor = none) (hparent : env.chain ancestor .parent = .ok next)
    {rounds : Nat}
    (h : Walks env headers i status fault ancestors (i.ancestorsSound rounds next) cache s) :
    Walks env headers i status fault (ancestor :: ancestors)
      (read ancestor .parent >>= i.ancestorsSound rounds) cache s := by
  have hgoes : ¬ decides status fault ancestor = true := by simp [decides, hprogress, hnone]
  constructor
  · rw [soundness_cons_of_not_decides hgoes]
    simp only [gives_read_bind_of hparent]
    exact h.gives
  · rw [exchanges_read_bind hparent, List.forall_mem_cons]
    refine ⟨⟨ancestor, List.mem_cons_self, .parent hprogress hnone⟩, fun e he => ?_⟩
    obtain ⟨a, ha, hvisiting⟩ := h.visits e he
    exact ⟨a, mem_take_findIdx_succ hgoes ha, hvisiting⟩

/-- What is asked first about an ancestor and gives a value may be asked on the way. -/
theorem Walks.bind {α : Type} {x : Work γ α} {f : α → Work γ Bool} {a : α} {c : OutputCache} {t : σ}
    (hx : x.Gives env cache s a c t)
    (hvisits : ∀ e ∈ (x cache).exchanges env.answer s,
      env.Visiting headers i status fault ancestor e.ask)
    (h : Walks env headers i status fault (ancestor :: ancestors) (f a) c t) :
    Walks env headers i status fault (ancestor :: ancestors) (x >>= f) cache s := by
  constructor
  · obtain ⟨c', t', hf⟩ := h.gives
    exact ⟨c', t', gives_bind_iff.mpr ⟨a, c, t, hx, hf⟩⟩
  · rw [exchanges_bind_of_gives hx, List.forall_mem_append]
    exact ⟨fun e he => ⟨ancestor, List.mem_cons_self, hvisits e he⟩, h.visits⟩

theorem walks_of_lineage {rounds : Nat} (hlineage : env.Lineage next ancestors)
    (hlength : ancestors.length ≤ rounds)
    (hjudged : ∀ a ∈ ancestors, Judged env root headers i status fault a)
    (htruth : env.Truthful root) (hrounds : 0 < i.rounds) (hc : cache.Holds (OfChain root))
    (hresponds : ∀ e ∈ (i.ancestorsSound rounds next cache).exchanges env.answer s,
      Responds headers e.ask e.reply) :
    Walks env headers i status fault ancestors (i.ancestorsSound rounds next) cache s := by
  induction hlineage generalizing rounds cache s with
  | nil =>
    cases rounds <;> exact ⟨⟨cache, s, rfl⟩, List.forall_mem_nil _⟩
  | @cons ancestor next ancestors hparent rest ih =>
    obtain ⟨rounds, rfl⟩ := Nat.exists_eq_succ_of_ne_zero (Nat.ne_zero_of_lt hlength)
    obtain ⟨hhere, hlater⟩ := List.forall_mem_cons.mp hjudged
    have hread : (read ancestor .status).Gives env cache s (status ancestor) cache s :=
      gives_read_iff.mpr ⟨hhere.stands, rfl, rfl⟩
    rw [Inspector.ancestorsSound_succ] at hresponds ⊢
    rw [exchanges_bind_of_gives hread, List.forall_mem_append] at hresponds
    refine Walks.bind hread ((asks_read .status cache).exchanges s) ?_
    have hended (c : OutputCache) (t : σ) (h : decides status fault ancestor = true) :
        Walks env headers i status fault (ancestor :: ancestors)
          (pure (decide (status ancestor = .defenderWins))) c t := walks_of_decides h
    cases hstatus : status ancestor with
    | defenderWins | challengerWins =>
      have hne : status ancestor ≠ .inProgress := hstatus ▸ nofun
      have hwalks := hended cache s (decides_of_status hne)
      rw [hstatus] at hwalks
      exact hwalks
    | inProgress =>
      rw [hstatus] at hresponds
      obtain ⟨⟨c, t, hgives, hholds⟩, hvisiting⟩ := hhere.detects hstatus htruth hrounds hc
        fun e he => hresponds.2 e (mem_exchanges_bind he)
      rw [exchanges_bind_of_gives hgives, List.forall_mem_append] at hresponds
      refine Walks.bind hgives hvisiting ?_
      cases hfault : fault ancestor with
      | some index =>
        have hwalks := hended c t (decides_of_fault (hfault ▸ nofun))
        rw [hstatus] at hwalks
        exact hwalks
      | none =>
        rw [hfault] at hresponds
        refine Walks.cons hstatus hfault hparent ?_
        refine ih (Nat.le_of_succ_le_succ hlength) hlater hholds ?_
        have hwalking := hresponds.2.2
        unfold Inspector.walkOn at hwalking
        rw [exchanges_read_bind hparent, List.forall_mem_cons] at hwalking
        exact hwalking.2

/-! ## From the inspector's own game -/

def Inspector.walk (i : Inspector γ) : Work γ Bool := do
  i.ancestorsSound i.rounds (← read i.game .parent)

/-- The walk is made once the game itself is found to be challengeable. -/
theorem Inspector.signal_eq_walk (i : Inspector γ) : i.signal = (do
    match (← i.inspect).verdict with
    | .noFault | .alreadyChallenged _ => return []
    | .windowMissed index => do
      notify (.windowMissed index)
      return []
    | .challenge index => return if ← i.walk then [.challenge index] else []) := by
  refine congrArg (i.inspect >>= ·) (funext fun finding => ?_)
  cases finding.verdict with
  | challenge index => exact (Work.bind_assoc ..).symm
  | _ => rfl

theorem Surroundings.Visiting.of_read {game : γ} {what : Read}
    (h : env.Visiting headers i status fault ancestor (.read game what)) :
    game = ancestor ∧ (status ancestor ≠ .inProgress → what = .status) := by
  cases h with
  | status => exact ⟨rfl, fun _ => rfl⟩
  | detection hprogress _ hq => exact ⟨hq.1, fun hne => absurd hprogress hne⟩
  | parent hprogress _ => exact ⟨rfl, fun hne => absurd hprogress hne⟩

/-- The walk along a lineage ends. Its answer is yes if and only if every ancestor before the first
one that its defender has won is in progress and without a fault; it is that of the first ancestor
that decides. About those beyond, nothing is asked, and of one that is over only the status is
read. -/
theorem walk_decided (hlineage : env.Lineage (some i.game) (i.game :: ancestors))
    (hlength : ancestors.length ≤ i.rounds) (hrounds : 0 < i.rounds) (htruth : env.Truthful root)
    (hjudged : ∀ a ∈ ancestors, Judged env root headers i status fault a)
    (hcache : Reachable γ (OfChain root) cache)
    (hresponds : ∀ e ∈ (i.walk cache).exchanges env.answer s, Responds headers e.ask e.reply) :
    ∃ valid cache' s', i.walk.Gives env cache s valid cache' s' ∧
      (valid = true ↔ ∀ a ∈ ancestors.takeWhile (status · ≠ .defenderWins),
        status a = .inProgress ∧ fault a = none) ∧
      valid = (ancestors.find? (decides status fault)).all (status · = .defenderWins) ∧
      (∀ e ∈ (i.walk cache).exchanges env.answer s, e.ask = .read i.game .parent ∨
        ∃ a ∈ ancestors.take (ancestors.findIdx (decides status fault) + 1),
          env.Visiting headers i status fault a e.ask) ∧
      (∀ e ∈ (i.walk cache).exchanges env.answer s,
        ∀ a ∈ ancestors.drop (ancestors.findIdx (decides status fault) + 1), ∀ what,
          e.ask ≠ .read a what) ∧
      ∀ e ∈ (i.walk cache).exchanges env.answer s, ∀ a ∈ ancestors, status a ≠ .inProgress →
        ∀ what, e.ask = .read a what → what = .status := by
  cases hlineage with
  | @cons _ next _ hparent rest =>
  have hnodup := List.nodup_cons.mp (Surroundings.Lineage.cons hparent rest).nodup
  unfold Inspector.walk at hresponds ⊢
  rw [exchanges_read_bind hparent, List.forall_mem_cons] at hresponds
  obtain ⟨⟨cache', s', hgives⟩, hvisits⟩ := walks_of_lineage rest hlength hjudged htruth hrounds
    (hcache.holds number_of_ofChain) hresponds.2
  have hasked : ∀ e ∈ ((read i.game .parent >>= i.ancestorsSound i.rounds) cache).exchanges
      env.answer s, e.ask = .read i.game .parent ∨
        ∃ a ∈ ancestors.take (ancestors.findIdx (decides status fault) + 1),
          env.Visiting headers i status fault a e.ask := by
    rw [exchanges_read_bind hparent, List.forall_mem_cons]
    exact ⟨.inl rfl, fun e he => .inr (hvisits e he)⟩
  refine ⟨_, cache', s', (gives_read_bind_of hparent).mpr hgives, soundness_eq_true_iff, rfl,
    hasked, fun e he a ha what heq => ?_, fun e he a ha hover what heq => ?_⟩
  · rcases hasked e he with hown | ⟨b, hb, hvisiting⟩
    · obtain ⟨rfl, -⟩ := Watch.Ask.read.inj (heq.symm.trans hown)
      exact hnodup.1 (List.mem_of_mem_drop ha)
    · rw [heq] at hvisiting
      obtain ⟨rfl, -⟩ := hvisiting.of_read
      rw [← List.take_append_drop (ancestors.findIdx (decides status fault) + 1) ancestors,
        List.nodup_append] at hnodup
      exact hnodup.2.2.2 _ hb _ ha rfl
  · rcases hasked e he with hown | ⟨b, -, hvisiting⟩
    · obtain ⟨rfl, -⟩ := Watch.Ask.read.inj (heq.symm.trans hown)
      exact absurd ha hnodup.1
    · rw [heq] at hvisiting
      obtain ⟨rfl, hstatus⟩ := hvisiting.of_read
      exact hstatus hover

end

namespace Sample

/-! ## A game with four ancestors

The first two ancestors are in progress and without a fault, the third has been won by its defender,
and the last by its challenger. -/

def lineStatus : Nat → Game.Status
  | 3 => .defenderWins
  | 4 => .challengerWins
  | _ => .inProgress

def lineChain : Nat → (what : Read) → Except Fault (what.Value Nat)
  | game, .status => .ok (lineStatus game)
  | _, .claimCount => .ok 2
  | _, .l1Head => .ok .zero
  | _, .blockRange => .ok (0, 1)
  | _, .detectDuration => .ok 60
  | _, .clockDuration => .ok 120
  | _, .createdAt => .ok 0
  | _, .rootClaim => .ok (root 1)
  | _, .claimsHash => .ok (Game.claimsHash [root 0, root 1])
  | _, .challenged _ => .ok false
  | _, .challengeSuccess => .ok false
  | _, .blockDistance => .ok 1
  | _, .claims _ => .ok [root 0, root 1]
  | 4, .parent => .ok none
  | game, .parent => .ok (some (game + 1))
  | _, .canResolveClaim => .ok false
  | _, .canResolve => .ok false

def lineNode : (q : Watch.Ask Nat) → Unit → Watch.Reply Nat q × Unit
  | .fetch what, s => (some (.ok (fetched what)), s)
  | .read .., s => (.error Cause.cancelled, s)
  | .validate _, s | .submit .., s => (.ok (), s)
  | .now, s => (0, s)
  | .stopping, s | .pause .., s => (false, s)
  | .notify _, s => ((), s)

def line : Surroundings Nat Unit := ⟨lineChain, 5, lineNode⟩

theorem line_truthful : line.Truthful root := by
  intro q s
  cases q with
  | fetch what => exact serves_fetched what
  | _ => trivial

theorem line_responds (q : Watch.Ask Nat) (s : Unit) :
    Responds header q (line.answer q s).1 := by
  cases q with
  | fetch what => cases what <;> first | rfl | exact ⟨_, rfl⟩
  | stopping => rfl
  | _ => trivial

/-- The game that the walk begins at. -/
def youngest : Inspector Nat := ⟨0, range, ⟨0, 60, 120⟩, ⟨.zero, 0⟩, 4⟩

theorem line_lineage : line.Lineage (some youngest.game) [youngest.game, 1, 2, 3, 4] :=
  .cons rfl (.cons rfl (.cons rfl (.cons rfl (.cons rfl .nil))))

theorem expected_line (game : Nat) : expected root (lineChain game) range ⟨.zero, 0⟩ = .ok none := by
  rw [expected_of_last rfl rfl, roots_eq]
  exact if_pos rfl

theorem line_judged (game : Nat) :
    Judged line root header youngest lineStatus (fun _ => none) game where
  stands := rfl
  detected _ := ⟨range, ⟨.zero, 0⟩, ⟨⟨0, 1, 1, rfl, rfl, rfl⟩, .zero, rfl, rfl⟩, expected_line game⟩

end Sample

open Sample in
/-- The third ancestor speaks for those before it. It is not looked into, and nothing is asked about
the last. -/
theorem walk_decided_sample :
    (∃ cache' s', youngest.walk.Gives line cache () true cache' s') ∧
    (∀ e ∈ (youngest.walk cache).exchanges line.answer (), ∀ what,
      e.ask = .read 3 what → what = .status) ∧
    ∀ e ∈ (youngest.walk cache).exchanges line.answer (), ∀ what, e.ask ≠ .read 4 what := by
  obtain ⟨valid, cache', s', hgives, -, hvalid, -, hbeyond, hover⟩ := walk_decided (s := ())
    line_lineage (Nat.le_refl 4) (Nat.succ_pos 3) line_truthful (fun game _ => line_judged game)
    (.fresh (show OutputCache.of 64 1 = .ok cache from rfl)) (Program.exchanges_rely line_responds)
  obtain rfl : valid = true := hvalid
  refine ⟨⟨cache', s', hgives⟩, fun e he => hover e he 3 (by decide) nofun, fun e he => ?_⟩
  exact hbeyond e he 4 (List.mem_singleton_self 4)

end Watchtower
