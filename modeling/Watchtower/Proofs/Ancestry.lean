import Watchtower.Proofs.Equipment
import Watchtower.Proofs.Finding
import Watchtower.Proofs.Outcome

/-!
# The same game, seen by its own watcher and by that of a game built on it

* `i.detectIn ancestor` : what the walk to the games that a game builds on detects in one of them
  (`ancestorsSound_succ`);
* `env.Grants root headers` : the rely of nodes that answer every request, truthfully, and of
  contracts that stand as they are;
* `upholds_detectIn` : what is detected is what is expected of the range with the stride that the
  ancestor says or, if it says none, with that of the inspector's own game;
* `walk_agrees` : that is what the ancestor's own watcher detects, if the ancestor says its stride
  or the inspector's own game has the default one. Otherwise they may differ (`walk_differs`): the
  own watcher takes the default stride.
-/

namespace Watchtower

open Work OutputCache

section
variable {γ σ : Type} {env : Surroundings γ σ} {root : UInt64 → Hash} {headers : Hash → L1.Header}
  {cache : OutputCache} {ancestor : γ}

namespace Inspector

/-- The detection of a fault in a game that the inspector's own builds on. -/
def detectIn (i : Inspector γ) (ancestor : γ) : Work γ (Option UInt64) := do
  let (first, last) ← read ancestor .blockRange
  let distance ← read ancestor .blockDistance
  let stride := if distance = 0 then i.range.stride else distance
  let range ← ofExcept (Game.Range.of first last stride)
  let header ← fetch (.header (← read ancestor .l1Head))
  let head ← ofExcept (L1.Head.ofHeader header)
  detectFault i.rounds ancestor range head

/-- The walk after the detection: a fault ends it, and without one it goes on to the next game. -/
def walkOn (i : Inspector γ) (rounds : Nat) (ancestor : γ) : Option UInt64 → Work γ Bool
  | some _ => return false
  | none => do i.ancestorsSound rounds (← read ancestor .parent)

theorem ancestorsSound_succ (i : Inspector γ) (rounds : Nat) (ancestor : γ) :
    i.ancestorsSound (rounds + 1) (some ancestor) = (do
      match ← read ancestor .status with
      | .defenderWins => return true
      | .challengerWins => return false
      | .inProgress => i.detectIn ancestor >>= i.walkOn rounds ancestor) := by
  have hwalkOn : i.walkOn rounds ancestor = (fun fault => do
      if fault.isSome then return false
      i.ancestorsSound rounds (← read ancestor .parent)) := by
    funext fault
    cases fault <;> rfl
  rw [ancestorsSound]
  refine congrArg (read ancestor .status >>= ·) (funext fun status => ?_)
  cases status with
  | inProgress => simp only [detectIn, Work.bind_assoc, hwalkOn]
  | challengerWins => rfl
  | defenderWins => rfl

end Inspector

/-- Nodes answer every request, with outputs of the chain and the headers of blocks, and contracts
answer as they do. -/
def Surroundings.Grants (env : Surroundings γ σ) (root : UInt64 → Hash)
    (headers : Hash → L1.Header) : (Watch γ).Rely :=
  fun q reply => Responds headers q reply ∧ Serves (OfChain root) q reply ∧ env.Agrees q reply

theorem Surroundings.Truthful.grants (htruth : env.Truthful root) {α : Type}
    {p : Program (Watch γ) α} {s : σ}
    (hresponds : ∀ e ∈ p.exchanges env.answer s, Responds headers e.ask e.reply) :
    ∀ e ∈ p.exchanges env.answer s, env.Grants root headers e.ask e.reply := by
  intro e he
  have hserves : ∀ e ∈ p.exchanges env.answer s, Serves (OfChain root) e.ask e.reply :=
    Program.exchanges_rely htruth
  have hagrees : ∀ e ∈ p.exchanges env.answer s, env.Agrees e.ask e.reply :=
    Program.exchanges_rely env.agrees_answer
  exact ⟨hresponds e he, hserves e he, hagrees e he⟩

theorem tells_of_grants (game : γ) (q : Watch.Ask γ) (reply : Watch.Reply γ q)
    (h : env.Grants root headers q reply) :
    Tells game (env.chain game) (fun _ => False) q reply := by
  cases q with
  | read g what =>
    rintro rfl -
    exact .inl h.2.2
  | _ => trivial

theorem upholds_granted {game : γ} {range : Game.Range} {head : L1.Head} {rounds : Nat}
    (hrounds : 0 < rounds) (hc : cache.Holds (OfChain root)) :
    (detectFault rounds game range head).Upholds (env.Grants root headers) cache fun r c =>
      c.Holds (OfChain root) ∧ r = expected root (env.chain game) range head :=
  upholds_detection (fun _ _ h => h.1) hrounds (tells_of_grants game) (fun _ _ h => h.2.1) hc

theorem ends_granted {game : γ} {range : Game.Range} {head : L1.Head} {rounds : Nat}
    (hrounds : 0 < rounds) :
    (detectFault rounds game range head).Ends (env.Grants root headers) :=
  ends_detectFault (fun _ _ h => h.1) hrounds

namespace Inspector

variable {i own : Inspector γ}

/-- What an ancestor says of itself, with the range and the head that its detection is made with. -/
structure Places (env : Surroundings γ σ) (headers : Hash → L1.Header) (i : Inspector γ)
    (ancestor : γ) (range : Game.Range) (head : L1.Head) : Prop where
  range : ∃ first last distance, env.chain ancestor .blockRange = .ok (first, last) ∧
    env.chain ancestor .blockDistance = .ok distance ∧
    Game.Range.of first last (if distance = 0 then i.range.stride else distance) = .ok range
  head : ∃ hash, env.chain ancestor .l1Head = .ok hash ∧
    L1.Head.ofHeader (headers hash) = .ok head

theorem upholds_detectIn {range : Game.Range} {head : L1.Head}
    (hplaces : i.Places env headers ancestor range head) (hrounds : 0 < i.rounds)
    (hc : cache.Holds (OfChain root)) :
    (i.detectIn ancestor).Upholds (env.Grants root headers) cache fun r c =>
      c.Holds (OfChain root) ∧ r = expected root (env.chain ancestor) range head := by
  obtain ⟨first, last, distance, hbounds, hdistance, hrange⟩ := hplaces.range
  obtain ⟨hash, hhash, hhead⟩ := hplaces.head
  refine Upholds.bind (upholds_read fun reply hr => ?_)
  rw [show reply = _ from hr.2.2, hbounds]
  refine Upholds.bind (upholds_read fun reply hr => ?_)
  rw [show reply = _ from hr.2.2, hdistance]
  refine Upholds.bind (upholds_ofExcept ?_)
  rw [hrange]
  refine Upholds.bind (upholds_read fun reply hr => ?_)
  rw [show reply = _ from hr.2.2, hhash]
  refine Upholds.bind (upholds_fetch fun reply hr => ?_)
  rw [show reply = _ from hr.1]
  change (Work.ofExcept (L1.Head.ofHeader (headers hash)) >>=
    detectFault i.rounds ancestor range).Upholds ..
  rw [hhead]
  exact upholds_granted hrounds hc

/-- At a game in progress the walk is the detection in that game, and what follows from it. -/
theorem run_ancestorsSound {s : σ} (hstatus : env.chain ancestor .status = .ok .inProgress)
    (n : Nat) :
    (i.ancestorsSound (n + 1) (some ancestor) cache).run env.answer s =
      ((i.detectIn ancestor >>= i.walkOn n ancestor) cache).run env.answer s := by
  have hread : (read ancestor .status).Gives env cache s .inProgress cache s :=
    gives_read_iff.mpr ⟨hstatus, rfl, rfl⟩
  rw [ancestorsSound_succ, bind_apply, Program.run_bind, show Program.run .. = _ from hread]
  rfl

theorem ends_detectIn (hrounds : 0 < i.rounds) :
    (i.detectIn ancestor).Ends (env.Grants root headers) := by
  refine straight_ends.bind (straight_ends.read _ _ id) fun (first, last) => ?_
  refine straight_ends.bind (straight_ends.read _ _ id) fun distance => ?_
  refine straight_ends.bind (ends_ofExcept _) fun range => ?_
  refine straight_ends.bind (straight_ends.read _ _ id) fun hash => ?_
  refine straight_ends.bind (straight_ends.fetch _) fun header => ?_
  exact straight_ends.bind (ends_ofExcept _) fun head => ends_granted hrounds

end Inspector

/-- The walk has the head that the ancestor's own watcher has, and the range too, but for the stride
of an ancestor that says none. -/
theorem Equipped.places {settings : Settings} {own : Inspector γ}
    (h : Equipped (env.Grants root headers) settings ancestor own cache) (i : Inspector γ) :
    ∃ range, i.Places env headers ancestor range own.head ∧
      (env.chain ancestor .blockDistance ≠ .ok 0 → range = own.range) ∧
      (env.chain ancestor .blockDistance = .ok 0 →
        own.range.stride = settings.defaultStride ∧
        range = own.range.steppedAs i.range) := by
  obtain ⟨first, last, distance, hbounds, hdistance, hrange⟩ := h.range
  obtain ⟨hash, header, hhash, hheader, hhead⟩ := h.head
  have hdistance : env.chain ancestor .blockDistance = .ok distance := hdistance.2.2.symm
  obtain rfl : header = headers hash := Except.ok.inj (Option.some.inj hheader.1)
  obtain ⟨hfirst, hlast, hstride⟩ := Game.Range.of_eq_ok_iff.mp hrange
  by_cases hzero : distance = 0
  · refine ⟨own.range.steppedAs i.range, ⟨⟨first, last, distance, hbounds.2.2.symm, hdistance, ?_⟩,
      hash, hhash.2.2.symm, hhead⟩, ?_, ?_⟩
    · rw [if_pos hzero]
      exact Game.Range.of_eq_ok_iff.mpr ⟨hfirst, hlast, rfl⟩
    · exact fun hne => absurd (hzero ▸ hdistance) hne
    · rw [if_pos hzero] at hstride
      exact fun _ => ⟨hstride, rfl⟩
  · refine ⟨own.range, ⟨⟨first, last, distance, hbounds.2.2.symm, hdistance, ?_⟩, hash,
      hhash.2.2.symm, hhead⟩, fun _ => rfl, ?_⟩
    · rw [if_neg hzero] at hrange ⊢
      exact hrange
    · exact fun heq => absurd (Except.ok.inj (hdistance.symm.trans heq)) hzero

/-- What a game's own watcher detects in it, no fault, a fault at an index, or an error, is what the
walk from a game built on it detects there, if the game says its stride or the other has the default
one. In a game that says none, its own watcher looks for claims at the default stride, and the walk
at the stride of the other game. -/
theorem walk_agrees {settings : Settings} {parent : γ} {address : Address} {w : Watcher γ}
    {own child : Inspector γ} {fresh cache cache' : OutputCache} {s s' s₁ s₂ : σ}
    (htruth : env.Truthful root) (hrounds : 0 < settings.rounds)
    (hmade : (Watcher.of settings parent address).run env.answer s = some (.ok w, s'))
    (hactive : w.active = some (own, fresh)) (hsame : child.rounds = settings.rounds)
    (hcache : Reachable γ (OfChain root) cache) (hcache' : Reachable γ (OfChain root) cache')
    (hresponds : ∀ e ∈ (Watcher.of settings parent address).exchanges env.answer s ++
      (own.detect cache).exchanges env.answer s₁ ++
      (child.detectIn parent cache').exchanges env.answer s₂, Responds headers e.ask e.reply) :
    ∃ outcome outcome' c c' t t',
      (own.detect cache).run env.answer s₁ = some ((outcome, c), t) ∧
      (child.detectIn parent cache').run env.answer s₂ = some ((outcome', c'), t') ∧
      (∀ n, (child.ancestorsSound (n + 1) (some parent) cache').run env.answer s₂ =
        ((child.detectIn parent >>= child.walkOn n parent) cache').run env.answer s₂) ∧
      (env.chain parent .blockDistance ≠ .ok 0 ∨ child.range.stride = settings.defaultStride →
        outcome' = outcome) ∧
      (env.chain parent .blockDistance = .ok 0 → own.range.stride = settings.defaultStride ∧
        outcome = expected root (env.chain parent) own.range own.head ∧
        outcome' = expected root (env.chain parent) (own.range.steppedAs child.range) own.head) := by
  rw [List.forall_mem_append, List.forall_mem_append] at hresponds
  obtain ⟨⟨hmaking, howning⟩, hwalking⟩ := hresponds
  have hequipped := Program.Meets.of_exchanges Watcher.meets_of (htruth.grants hmaking)
  rw [hmade] at hequipped
  obtain ⟨-, -, hequipped⟩ := hequipped w rfl
  obtain ⟨hstatus, hequipped⟩ := hequipped own fresh hactive
  obtain ⟨range, hplaces, hsays, hzero⟩ := hequipped.places child
  obtain ⟨r, c, t, hrun, -, hr⟩ := (upholds_granted (hequipped.rounds ▸ hrounds)
    (hcache.holds number_of_ofChain)).runs (ends_granted (hequipped.rounds ▸ hrounds))
    (htruth.grants howning)
  obtain ⟨r', c', t', hrun', -, hr'⟩ := (Inspector.upholds_detectIn hplaces
    (hsame ▸ hrounds) (hcache'.holds number_of_ofChain)).runs
    (Inspector.ends_detectIn (hsame ▸ hrounds)) (htruth.grants hwalking)
  rw [hequipped.watches] at hr
  refine ⟨r, r', c, c', t, t', hrun, hrun', fun n => ?_, fun hcase => ?_, fun hnone => ?_⟩
  · exact Inspector.run_ancestorsSound hstatus.2.2.symm n
  · have hrange : range = own.range := by
      rcases hcase with hne | hdefault
      · exact hsays hne
      · by_cases hnone : env.chain parent .blockDistance = .ok 0
        · obtain ⟨hown, rfl⟩ := hzero hnone
          exact Game.Range.steppedAs_of_stride_eq (hdefault.trans hown.symm)
        · exact hsays hnone
    rw [hr, hr', hrange]
  · obtain ⟨hown, rfl⟩ := hzero hnone
    exact ⟨hown, hr, hr'⟩

end

namespace Sample

/-! ## A game and one that is built on it

The older game claims the roots of both its blocks, as they are. The younger one has a stride of
two. -/

inductive Kin
  | older
  | younger

def kinChain (distance : UInt64) : Kin → (what : Read) → Except Fault (what.Value Kin)
  | _, .status => .ok .inProgress
  | _, .claimCount => .ok 2
  | _, .l1Head => .ok .zero
  | .older, .blockRange => .ok (0, 1)
  | .younger, .blockRange => .ok (1, 3)
  | _, .detectDuration => .ok 60
  | _, .clockDuration => .ok 120
  | _, .createdAt => .ok 0
  | .older, .rootClaim => .ok (root 1)
  | .younger, .rootClaim => .ok (root 3)
  | .older, .claimsHash => .ok (Game.claimsHash [root 0, root 1])
  | .younger, .claimsHash => .ok (Game.claimsHash [root 1, root 3])
  | _, .challenged _ => .ok false
  | _, .challengeSuccess => .ok false
  | .older, .blockDistance => .ok distance
  | .younger, .blockDistance => .ok 2
  | .older, .claims _ => .ok [root 0, root 1]
  | .younger, .claims _ => .ok [root 1, root 3]
  | .older, .parent => .ok none
  | .younger, .parent => .ok (some .older)
  | _, .canResolveClaim => .ok false
  | _, .canResolve => .ok false

def kinNode : (q : Watch.Ask Kin) → Unit → Watch.Reply Kin q × Unit
  | .fetch what, s => (some (.ok (fetched what)), s)
  | .read .., s => (.error Cause.cancelled, s)
  | .validate _, s | .submit .., s => (.ok (), s)
  | .now, s => (0, s)
  | .stopping, s | .pause .., s => (false, s)
  | .notify _, s => ((), s)

/-- The older game says `distance` as its stride. -/
def kin (distance : UInt64) : Surroundings Kin Unit := ⟨kinChain distance, 5, kinNode⟩

def header (hash : Hash) : L1.Header := .bare hash (some 0)

theorem kin_truthful (distance : UInt64) : (kin distance).Truthful root := by
  intro q s
  cases q with
  | fetch what => exact serves_fetched what
  | _ => trivial

theorem kin_responds (distance : UInt64) (q : Watch.Ask Kin) (s : Unit) :
    Responds header q ((kin distance).answer q s).1 := by
  cases q with
  | fetch what => cases what <;> first | rfl | exact ⟨_, rfl⟩
  | stopping => rfl
  | _ => trivial

def settings : Settings := ⟨64, 1, 1⟩

def older : Inspector Kin := ⟨.older, range, ⟨0, 60, 120⟩, ⟨.zero, 0⟩, 1⟩

def younger : Inspector Kin := ⟨.younger, ⟨1, 3, 2, by decide, two_ne_zero⟩, ⟨0, 60, 120⟩, ⟨.zero, 0⟩, 1⟩

/-- The range of the older game as the younger one has it. -/
def doubled : Game.Range := range.steppedAs younger.range

theorem kin_reachable : Reachable Kin (OfChain root) cache :=
  .fresh (show OutputCache.of 64 1 = .ok cache from rfl)

theorem roots_doubled : doubled.positions.map root = [.ofNat 0] := by
  rw [doubled.positions_eq_map]
  rfl

theorem expected_older (distance : UInt64) :
    expected root (kinChain distance .older) range ⟨.zero, 0⟩ = .ok none := by
  rw [expected_of_last rfl rfl, roots_eq]
  exact if_pos rfl

theorem expected_doubled (distance : UInt64) :
    expected root (kinChain distance .older) doubled ⟨.zero, 0⟩ =
      .error (Cause.claimCount 1 2) := by
  rw [expected_of_last rfl rfl, roots_doubled, if_neg]
  · rfl
  · intro h
    have heads := head_claimsHash_single
    rw [h] at heads
    exact absurd (heads.symm.trans head_claimsHash.1) (by decide)

theorem older_made (distance : UInt64) (hdistance : distance = 0 ∨ distance = 1) :
    (Watcher.of settings Kin.older .zero).run (kin distance).answer () =
      some (.ok ⟨.older, .zero, .inProgress, some (older, cache)⟩, ()) := by
  rcases hdistance with rfl | rfl <;> rfl

theorem kin_grants (distance : UInt64) {α : Type} (p : Program (Watch Kin) α) :
    ∀ e ∈ p.exchanges (kin distance).answer (), (kin distance).Grants root header e.ask e.reply :=
  (kin_truthful distance).grants (Program.exchanges_rely (kin_responds distance))

/-- Whatever the older game says of its stride, its own watcher finds no fault. -/
theorem eq_of_detects {distance : UInt64} {outcome : Except Fault (Option UInt64)}
    {c : OutputCache}
    (h : (older.detect cache).run (kin distance).answer () = some ((outcome, c), ())) :
    outcome = .ok none := by
  have hholds := kin_reachable.holds number_of_ofChain
  obtain ⟨-, rfl⟩ := (upholds_granted Nat.one_pos hholds).of_run (kin_grants distance _) h
  exact expected_older distance

end Sample

open Sample in
/-- The younger game's own stride is two and the default is one, and yet the older game is found to
be without a fault on both sides, since it says its stride. -/
theorem walk_agrees_sample : ∃ c c',
    (older.detect cache).run (kin 1).answer () = some ((.ok none, c), ()) ∧
    (younger.detectIn .older cache).run (kin 1).answer () = some ((.ok none, c'), ()) := by
  have hresponds {α : Type} (p : Program (Watch Kin) α) :
      ∀ e ∈ p.exchanges (kin 1).answer (), Responds header e.ask e.reply :=
    Program.exchanges_rely (kin_responds 1)
  have hsays : (kin 1).chain .older .blockDistance ≠ .ok 0 := by
    intro h
    exact absurd (Except.ok.inj h) (by decide)
  obtain ⟨outcome, outcome', c, c', ⟨⟩, ⟨⟩, hown, hwalk, -, hagree, -⟩ := walk_agrees
    (kin_truthful 1) Nat.one_pos (older_made 1 (.inr rfl)) rfl (show younger.rounds = 1 from rfl)
    kin_reachable kin_reachable (List.forall_mem_append.mpr
      ⟨List.forall_mem_append.mpr ⟨hresponds _, hresponds _⟩, hresponds _⟩)
  obtain rfl := hagree (.inl hsays)
  obtain rfl := eq_of_detects hown
  exact ⟨c, c', hown, hwalk⟩

open Sample in
/-- Not if the older game says no stride: with the default stride of one its own watcher finds no
fault, and that of the younger one, with a stride of two, fails on the number of claims. -/
theorem walk_differs :
    ¬ ∀ (env : Surroundings Kin Unit) (root : UInt64 → Hash) (headers : Hash → L1.Header)
      (settings : Settings) (parent : Kin) (address : Address) (w : Watcher Kin)
      (own child : Inspector Kin) (fresh cache cache' : OutputCache),
      env.Truthful root → (∀ q s, Responds headers q (env.answer q s).1) → 0 < settings.rounds →
      (Watcher.of settings parent address).run env.answer () = some (.ok w, ()) →
      w.active = some (own, fresh) → child.rounds = settings.rounds →
      Reachable Kin (OfChain root) cache → Reachable Kin (OfChain root) cache' →
      ∃ outcome c c', (own.detect cache).run env.answer () = some ((outcome, c), ()) ∧
        (child.detectIn parent cache').run env.answer () = some ((outcome, c'), ()) := by
  intro h
  obtain ⟨outcome, c, c', hown, hwalk⟩ := h (kin 0) root header settings .older .zero _ older younger
    cache cache cache (kin_truthful 0) (kin_responds 0) Nat.one_pos (older_made 0 (.inl rfl)) rfl rfl
    kin_reachable kin_reachable
  obtain rfl := eq_of_detects hown
  have hplaces : younger.Places (kin 0) header .older doubled ⟨.zero, 0⟩ :=
    ⟨⟨0, 1, 0, rfl, rfl, rfl⟩, .zero, rfl, rfl⟩
  obtain ⟨-, houtcome⟩ := (Inspector.upholds_detectIn hplaces Nat.one_pos
    (kin_reachable.holds number_of_ofChain)).of_run (kin_grants 0 _) hwalk
  exact nomatch houtcome.trans (expected_doubled 0)

end Watchtower
