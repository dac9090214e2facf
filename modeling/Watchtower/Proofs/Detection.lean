import Watchtower.Proofs.Commitment
import Watchtower.Proofs.Reachable
import Watchtower.Proofs.Surroundings

/-!
# What the inspector finds

* `Faulty root range claims k` : claim `k` is not the root of its block; `FirstFault` : and none
  before it is faulty;
* `env.Truthful root` : the node answers with outputs of the chain whose roots are `root`;
* `env.Commits game claims` : what the game's contract answers about its claims is about `claims`;
* `Detects` : the ways in which a detection comes to its result, at the last block, nowhere, or
  inside the range (`Detects.of_gives`);
* `Detects.sound` : for a game that commits to its claims, what a detection says is so: no claim is
  faulty, or a target is `Located`, the last claim if that is faulty and else the first faulty one;
* `delivers_inspect` : an inspection in which nothing fails comes to a finding.
-/

namespace Watchtower

open Work OutputCache

variable {γ σ α : Type} {env : Surroundings γ σ} {root : UInt64 → Hash} {claims : List Hash}
  {game : γ} {range : Game.Range} {head : L1.Head} {rounds : Nat} {cache cache' : OutputCache}
  {s s' : σ}

/-! ## Faulty claims -/

/-- The outputs of the chain with these roots. -/
def OfChain (root : UInt64 → Hash) (block : UInt64) (output : Rollup.Output) : Prop :=
  output.number = block ∧ output.root = root block

theorem number_of_ofChain (block : UInt64) (output : Rollup.Output) (h : OfChain root block output) :
    output.number = block := h.1

def Faulty (root : UInt64 → Hash) (range : Game.Range) (claims : List Hash) (k : Nat) : Prop :=
  ∃ claim, claims[k]? = some claim ∧ claim ≠ root (range.block k)

def FirstFault (root : UInt64 → Hash) (range : Game.Range) (claims : List Hash) (k : Nat) : Prop :=
  Faulty root range claims k ∧ ∀ j < k, ¬ Faulty root range claims j

theorem Faulty.lt {k : Nat} (h : Faulty root range claims k) : k < claims.length := by
  obtain ⟨claim, hk, -⟩ := h
  exact (List.getElem?_eq_some_iff.mp hk).1

theorem faulty_iff (hlen : claims.length = range.positionCount) (k : Nat) :
    Faulty root range claims k ↔ (range.positions.map root)[k]? ≠ claims[k]? := by
  unfold Faulty
  rw [Game.Range.positions_eq_map, List.getElem?_map, List.getElem?_map]
  by_cases hk : k < range.positionCount
  · rw [List.getElem?_range hk, List.getElem?_eq_getElem (by omega)]
    simp [eq_comm]
  · rw [List.getElem?_eq_none (by omega), List.getElem?_eq_none (by simpa using hk)]
    simp

theorem firstFault_iff (hlen : claims.length = range.positionCount) (k : Nat) :
    FirstFault root range claims k ↔ Game.Parts (range.positions.map root) claims k := by
  unfold FirstFault Game.Parts
  simp only [faulty_iff hlen, ne_eq, Classical.not_not]

theorem faulty_last_iff (haligned : range.Aligned) (hlen : claims.length = range.positionCount)
    {claim : Hash} (hlast : claims.getLast? = some claim) :
    Faulty root range claims range.endIndex.toNat ↔ claim ≠ root range.last := by
  have hend := range.toNat_endIndex
  rw [List.getLast?_eq_getElem?, show claims.length - 1 = range.endIndex.toNat by omega] at hlast
  unfold Faulty
  rw [hlast, range.block_endIndex haligned]
  simp

/-! ## The node and the game -/

def Surroundings.Truthful (env : Surroundings γ σ) (root : UInt64 → Hash) : Prop :=
  ∀ q s, Serves (OfChain root) q (env.answer q s).1

structure Surroundings.Commits (env : Surroundings γ σ) (game : γ) (claims : List Hash) : Prop where
  rootClaim : ∀ {claim}, env.chain game .rootClaim = .ok claim → claims.getLast? = some claim
  claimsHash : ∀ {hash}, env.chain game .claimsHash = .ok hash → hash = Game.claimsHash claims
  claims : ∀ {head list}, env.chain game (.claims head) = .ok list → list = claims

theorem roots_of_ofChain {outputs : List Rollup.Output}
    (h : outputs.map Rollup.Output.number = range.positions ∧
      ∀ o ∈ outputs, OfChain root o.number o) :
    outputs.map Rollup.Output.root = range.positions.map root := by
  rw [← h.1, List.map_map]
  exact List.map_congr_left fun o hm => (h.2 o hm).2

/-- Of outputs for the positions of a range, the index computed from the block is the place. -/
theorem toNat_indexOf_number {outputs : List Rollup.Output}
    (h : outputs.map Rollup.Output.number = range.positions) (k : Fin outputs.length) :
    (range.indexOf (outputs.get k).number).toNat = k := by
  have hlen := congrArg List.length h
  rw [List.length_map, Game.Range.length_positions] at hlen
  have hk : k.val < range.positionCount := hlen ▸ k.isLt
  have hnumber : (outputs.get k).number = range.block k := by
    have hget := congrArg (·[k.val]?) h
    rw [Game.Range.positions_eq_map] at hget
    simpa [List.getElem?_range hk] using hget
  rw [hnumber, range.toNat_indexOf_block hk]

/-- If the claims are the roots of their blocks, none is faulty. -/
theorem not_faulty_of_eq (hlen : claims.length = range.positionCount)
    (h : range.positions.map root = claims) (k : Nat) : ¬ Faulty root range claims k := by
  rw [faulty_iff hlen, h]
  exact not_not_intro rfl

/-- Where the roots of the outputs part from the claims, the first faulty claim is. -/
theorem firstFault_of_parts (hlen : claims.length = range.positionCount)
    {outputs : List Rollup.Output} (hnumbers : outputs.map Rollup.Output.number = range.positions)
    (hroots : outputs.map Rollup.Output.root = range.positions.map root) {k : Fin outputs.length}
    (hparts : Game.Parts (outputs.map Rollup.Output.root) claims k) :
    FirstFault root range claims (range.indexOf (outputs.get k).number).toNat := by
  rw [toNat_indexOf_number hnumbers k, firstFault_iff hlen, ← hroots]
  exact hparts

theorem Surroundings.Truthful.loadOne_root (htruth : env.Truthful root)
    (hcache : cache.Holds (OfChain root)) {block : UInt64} {output : Rollup.Output}
    (hg : (loadOne block).Gives env cache s output cache' s') :
    output.root = root block ∧ cache'.Holds (OfChain root) := by
  obtain ⟨hc, ho⟩ := (upholds_loadOne number_of_ofChain block hcache).of_gives htruth hg
  exact ⟨ho.2, hc⟩

theorem Surroundings.Truthful.loadRange_roots (htruth : env.Truthful root)
    (hcache : cache.Holds (OfChain root)) {outputs : List Rollup.Output}
    (hg : (loadRange rounds range).Gives env cache s outputs cache' s') :
    outputs.map Rollup.Output.number = range.positions ∧
      outputs.map Rollup.Output.root = range.positions.map root := by
  obtain ⟨-, h⟩ := (upholds_loadRange number_of_ofChain rounds range hcache).of_gives htruth hg
  exact ⟨h.1, roots_of_ofChain h⟩

/-! ## How a fault is detected -/

inductive Detects (env : Surroundings γ σ) (rounds : Nat) (game : γ) (range : Game.Range)
    (head : L1.Head) (cache : OutputCache) (s : σ) : Option UInt64 → OutputCache → σ → Prop
  | last {claim : Hash} {last : Rollup.Output} {c : OutputCache} {t : σ}
      (hclaim : env.chain game .rootClaim = .ok claim)
      (hlast : (loadOne range.last).Gives env cache s last c t) (hne : claim ≠ last.root) :
      Detects env rounds game range head cache s (some range.endIndex) c t
  | nowhere {last : Rollup.Output} {outputs : List Rollup.Output} {c c' : OutputCache} {t t' : σ}
      (hclaim : env.chain game .rootClaim = .ok last.root)
      (hlast : (loadOne range.last).Gives env cache s last c t)
      (hload : (loadRange rounds range).Gives env c t outputs c' t')
      (hhash : env.chain game .claimsHash =
        .ok (Game.claimsHash (outputs.map Rollup.Output.root))) :
      Detects env rounds game range head cache s none c' t'
  | inside {last : Rollup.Output} {outputs : List Rollup.Output} {c c' : OutputCache} {t t' : σ}
      {committed : Hash} {claimed : List Hash} {k : Fin outputs.length}
      (hclaim : env.chain game .rootClaim = .ok last.root)
      (hlast : (loadOne range.last).Gives env cache s last c t)
      (hload : (loadRange rounds range).Gives env c t outputs c' t')
      (hhash : env.chain game .claimsHash = .ok committed)
      (hne : Game.claimsHash (outputs.map Rollup.Output.root) ≠ committed)
      (hclaimed : env.chain game (.claims head) = .ok claimed)
      (hlen : outputs.length = claimed.length)
      (hparts : Game.Parts (outputs.map Rollup.Output.root) claimed k) :
      Detects env rounds game range head cache s (some (range.indexOf (outputs.get k).number)) c' t'

theorem Detects.of_gives {fault : Option UInt64}
    (hg : (detectFault rounds game range head).Gives env cache s fault cache' s') :
    Detects env rounds game range head cache s fault cache' s' := by
  unfold detectFault at hg
  rw [gives_read_bind_iff] at hg
  obtain ⟨claim, hclaim, hg⟩ := hg
  rw [gives_bind_iff] at hg
  obtain ⟨last, c, t, hlast, hg⟩ := hg
  split at hg
  · next hne =>
    obtain ⟨rfl, rfl, rfl⟩ := gives_pure_iff.mp hg
    exact .last hclaim hlast hne
  next heq =>
  obtain rfl := Classical.not_not.mp heq
  rw [gives_read_bind_iff] at hg
  obtain ⟨committed, hhash, hg⟩ := hg
  rw [gives_bind_iff] at hg
  obtain ⟨outputs, c', t', hload, hg⟩ := hg
  split at hg
  · next heq =>
    subst heq
    obtain ⟨rfl, rfl, rfl⟩ := gives_pure_iff.mp hg
    exact .nowhere hclaim hlast hload hhash
  next hne =>
  rw [gives_bind_iff] at hg
  obtain ⟨claimed, _, _, hclaimed, hg⟩ := hg
  rw [gives_within_iff, gives_read_iff] at hclaimed
  obtain ⟨hclaimed, rfl, rfl⟩ := hclaimed
  rw [gives_ofExcept_bind_iff] at hg
  obtain ⟨index, hindex, hg⟩ := hg
  obtain ⟨rfl, rfl, rfl⟩ := gives_pure_iff.mp hg
  obtain ⟨hlen, hparts⟩ := Game.locateDivergence_eq_ok_iff.mp hindex
  rw [List.length_map] at hlen
  exact .inside (k := index.cast (List.length_map _)) hclaim hlast hload hhash hne hclaimed hlen hparts

/-- No detection is made without the root claim. -/
theorem Detects.rootClaim_read {fault : Option UInt64}
    (h : Detects env rounds game range head cache s fault cache' s') :
    ∃ claim, env.chain game .rootClaim = .ok claim := by
  cases h with
  | last hclaim => exact ⟨_, hclaim⟩
  | nowhere hclaim => exact ⟨_, hclaim⟩
  | inside hclaim => exact ⟨_, hclaim⟩

/-! ## What it says of a game that commits to its claims -/

/-- `target` is the last claim if that is faulty, and else the first faulty one. -/
structure Located (root : UInt64 → Hash) (range : Game.Range) (claims : List Hash)
    (target : UInt64) : Prop where
  faulty : Faulty root range claims target.toNat
  atEnd : Faulty root range claims range.endIndex.toNat → target = range.endIndex
  first : ¬ Faulty root range claims range.endIndex.toNat →
    FirstFault root range claims target.toNat

theorem Detects.sound {fault : Option UInt64} (haligned : range.Aligned)
    (hlen : claims.length = range.positionCount) (htruth : env.Truthful root)
    (hcommits : env.Commits game claims) (hcache : cache.Holds (OfChain root))
    (hcol : NoCollision ((range.positions.map root).flatMap Hash.bytes)
      (claims.flatMap Hash.bytes))
    (h : Detects env rounds game range head cache s fault cache' s') :
    match fault with
    | none => ∀ k, ¬ Faulty root range claims k
    | some target => Located root range claims target := by
  cases h with
  | last hclaim hlast hne =>
    obtain ⟨hroot, -⟩ := htruth.loadOne_root hcache hlast
    rw [hroot] at hne
    have hfaulty := (faulty_last_iff haligned hlen (hcommits.rootClaim hclaim)).mpr hne
    exact ⟨hfaulty, fun _ => rfl, fun h => absurd hfaulty h⟩
  | nowhere hclaim hlast hload hhash =>
    obtain ⟨-, hc⟩ := htruth.loadOne_root hcache hlast
    obtain ⟨-, hroots⟩ := htruth.loadRange_roots hc hload
    have heq := hcommits.claimsHash hhash
    rw [hroots, Game.claimsHash_eq_iff hcol] at heq
    exact not_faulty_of_eq hlen heq
  | @inside _ outputs _ _ _ _ _ _ k hclaim hlast hload _ _ hclaimed _ hparts =>
    obtain ⟨hroot, hc⟩ := htruth.loadOne_root hcache hlast
    obtain ⟨hnumbers, hroots⟩ := htruth.loadRange_roots hc hload
    rw [hcommits.claims hclaimed] at hparts
    have hfirst := firstFault_of_parts hlen hnumbers hroots hparts
    have hright : ¬ Faulty root range claims range.endIndex.toNat := by
      rw [faulty_last_iff haligned hlen (hcommits.rootClaim hclaim)]
      exact not_not_intro hroot
    exact ⟨hfirst.1, fun h => absurd h hright, fun _ => hfirst⟩

/-! ## What nothing hinders is done -/

/-- Nothing fails, the node answers with outputs of the chain, and the contracts answer as they
do. -/
def Surroundings.Cooperates (env : Surroundings γ σ) (root : UInt64 → Hash) : (Watch γ).Rely :=
  fun q reply => Succeeds q reply ∧ Serves (OfChain root) q reply ∧ env.Agrees q reply

theorem Surroundings.Truthful.cooperates (htruth : env.Truthful root) {x : Work γ α}
    (hok : ∀ e ∈ (x cache).exchanges env.answer s, Succeeds e.ask e.reply) :
    ∀ e ∈ (x cache).exchanges env.answer s, env.Cooperates root e.ask e.reply := by
  intro e he
  have hs : ∀ e ∈ (x cache).exchanges env.answer s, Serves (OfChain root) e.ask e.reply :=
    Program.exchanges_rely htruth
  have ha : ∀ e ∈ (x cache).exchanges env.answer s, env.Agrees e.ask e.reply :=
    Program.exchanges_rely env.agrees_answer
  exact ⟨hok e he, hs e he, ha e he⟩

/-- A read in these surroundings is answered by what the contract says. -/
theorem delivers_chain {what : Read} {post : what.Value γ → OutputCache → Prop}
    (h : ∀ v, env.chain game what = .ok v → post v cache) :
    (read game what).Delivers (env.Cooperates root) cache post := by
  refine delivers_read fun reply hr => ?_
  obtain ⟨⟨v, rfl⟩, -, ha⟩ := hr
  exact ⟨v, rfl, h v (Eq.symm ha)⟩

theorem delivers_upheld {x : Work γ α} {post : α → OutputCache → Prop}
    {post' : Except Fault α → OutputCache → Prop} (h : x.Delivers Succeeds cache post)
    (h' : x.Upholds (Serves (OfChain root)) cache post') :
    x.Delivers (env.Cooperates root) cache fun a c => post a c ∧ post' (.ok a) c := by
  have hd : x.Delivers (env.Cooperates root) cache post := h.restrict fun _ _ hq => hq.1
  have hu : x.Upholds (env.Cooperates root) cache post' := h'.restrict fun _ _ hq => hq.2.1
  exact hd.and_upholds hu

/-- The scan for a difference is never refused: wherever it is made, there is one to be found. -/
def Surroundings.Scannable (env : Surroundings γ σ) (root : UInt64 → Hash) (game : γ)
    (range : Game.Range) (head : L1.Head) : Prop :=
  ∀ {committed claimed}, env.chain game .claimsHash = .ok committed →
    Game.claimsHash (range.positions.map root) ≠ committed →
    env.chain game (.claims head) = .ok claimed →
    range.positionCount = claimed.length ∧ range.positions.map root ≠ claimed

theorem Surroundings.Commits.scannable (hcommits : env.Commits game claims)
    (hlen : claims.length = range.positionCount) : env.Scannable root game range head := by
  intro committed claimed hcommitted hne hclaimed
  rw [hcommits.claimsHash hcommitted] at hne
  obtain rfl := hcommits.claims hclaimed
  exact ⟨hlen.symm, fun he => hne (congrArg Game.claimsHash he)⟩

/-- Of the loads it is enough that they are made, and that that of the range is complete. -/
theorem delivers_detectFault_of {rely : (Watch γ).Rely} (inv : OutputCache → Prop)
    (hscan : env.Scannable root game range head)
    (hread : ∀ what reply, rely (.read game what) reply →
      ∃ v, reply = .ok v ∧ env.chain game what = .ok v)
    (hone : (loadOne range.last).Delivers rely cache fun _ c => inv c)
    (hrange : ∀ c, inv c → (loadRange rounds range).Delivers rely c fun outputs _ =>
      outputs.map Rollup.Output.root = range.positions.map root) :
    (detectFault rounds game range head).Delivers rely cache fun _ _ => True := by
  have hchain {what : Read} {c : OutputCache} {post : what.Value γ → OutputCache → Prop}
      (h : ∀ v, env.chain game what = .ok v → post v c) :
      (read game what).Delivers rely c post := by
    refine delivers_read fun reply hr => ?_
    obtain ⟨v, rfl, hv⟩ := hread what reply hr
    exact ⟨v, rfl, h v hv⟩
  refine Delivers.bind (hchain fun claim _ => ?_)
  refine Delivers.bind (hone.imp fun last c hc => ?_)
  split
  · exact trivial
  refine Delivers.bind (hchain fun committed hcommitted => ?_)
  refine Delivers.bind ((hrange c hc).imp fun outputs c' hroots => ?_)
  split
  · exact trivial
  · next hne =>
    refine Delivers.bind (Delivers.within (hchain fun claimed hclaimed => ?_))
    obtain ⟨hlen, hdiff⟩ := hscan hcommitted (hroots ▸ hne) hclaimed
    rw [← range.length_positions, ← List.length_map (f := root), ← hroots] at hlen
    rw [← hroots] at hdiff
    obtain ⟨k, hk⟩ := Game.locateDivergence_of_ne hlen hdiff
    rw [hk]
    exact trivial

theorem delivers_detectFault (hscan : env.Scannable root game range head)
    (hcache : cache.Holds (OfChain root)) (hr : 0 < rounds) :
    (detectFault rounds game range head).Delivers (env.Cooperates root) cache fun _ _ => True := by
  refine delivers_detectFault_of (Holds (OfChain root)) hscan ?_ ?_ ?_
  · rintro what reply ⟨⟨v, rfl⟩, -, ha⟩
    exact ⟨v, rfl, Eq.symm ha⟩
  · refine (delivers_upheld (delivers_loadOne range.last)
      (upholds_loadOne number_of_ofChain range.last hcache)).imp ?_
    rintro last c ⟨-, hc, -⟩
    exact hc
  · intro c hc
    refine (delivers_upheld (delivers_loadRange hr range)
      (upholds_loadRange number_of_ofChain rounds range hc)).imp ?_
    rintro outputs c' ⟨-, -, hvalue⟩
    exact roots_of_ofChain hvalue

namespace Inspector

/-- The detection of a fault in the inspector's own game. -/
abbrev detect (i : Inspector γ) : Work γ (Option UInt64) :=
  detectFault i.rounds i.game i.range i.head

theorem gives_inspect_iff {i : Inspector γ} {finding : Game.Finding} :
    i.inspect.Gives env cache s finding cache' s' ↔
      ∃ fault, i.detect.Gives env cache s fault cache' s' ∧
        match fault with
        | none => finding = .clean (i.window.hasPassed env.clock)
        | some target => ∃ challenged, env.chain i.game (.challenged target) = .ok challenged ∧
            finding = ⟨true, target, challenged, i.window.hasPassed env.clock⟩ := by
  unfold inspect
  rw [gives_bind_iff]
  constructor
  · rintro ⟨fault, c, t, hfault, h⟩
    replace h := gives_now_bind_iff.mp h
    cases fault with
    | none =>
      obtain ⟨rfl, rfl, rfl⟩ := gives_pure_iff.mp h
      exact ⟨none, hfault, rfl⟩
    | some target =>
      rw [gives_read_bind_iff] at h
      obtain ⟨challenged, hread, h⟩ := h
      obtain ⟨rfl, rfl, rfl⟩ := gives_pure_iff.mp h
      exact ⟨some target, hfault, challenged, hread, rfl⟩
  · rintro ⟨fault, hfault, h⟩
    refine ⟨fault, cache', s', hfault, gives_now_bind_iff.mpr ?_⟩
    cases fault with
    | none => exact gives_pure_iff.mpr ⟨h, rfl, rfl⟩
    | some target =>
      obtain ⟨challenged, hread, h⟩ := h
      exact gives_read_bind_iff.mpr ⟨challenged, hread, gives_pure_iff.mpr ⟨h, rfl, rfl⟩⟩

theorem delivers_inspect {i : Inspector γ} (hscan : env.Scannable root i.game i.range i.head)
    (hcache : cache.Holds (OfChain root)) (hr : 0 < i.rounds) :
    i.inspect.Delivers (env.Cooperates root) cache fun _ _ => True := by
  refine Delivers.bind ((delivers_detectFault hscan hcache hr).imp fun fault c _ => ?_)
  refine Delivers.bind (delivers_ask fun now _ => ?_)
  cases fault with
  | none => exact trivial
  | some target => exact Delivers.bind (delivers_chain fun _ _ => trivial)

end Inspector

end Watchtower
