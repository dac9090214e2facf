import Watchtower.Proofs.Detection

/-!
# The finding on a game that commits to its claims

The game commits to one claim for each position of an aligned range, the node is truthful, the cache
is reachable, and the hash confuses neither the claims nor the roots.

* `inspect_complete` : an inspection in which nothing fails comes to a finding; it is that of a
  mismatch exactly if some claim is faulty, and its target is the last claim if that is faulty and
  else the first faulty one;
* `target_first_iff` : so the target is the first faulty claim unless the last claim is faulty
  together with an earlier one. Then it is the last all the same, since only one output was looked
  at (`target_not_always_first`).
-/

namespace Watchtower

open Work OutputCache

namespace Sample

/-! ## A game over two blocks

The root of a block is the word of its number, and both claims are wrong. -/

def range : Game.Range := ⟨0, 1, 1, by decide, by decide⟩

/-- A stride of other samples. -/
theorem two_ne_zero : (2 : UInt64) ≠ 0 := by decide

def root (block : UInt64) : Hash := .ofNat block.toNat

def output (block : UInt64) : Rollup.Output :=
  ⟨.zero, root block, ⟨.zero, block, .zero, 0⟩, .zero, .zero⟩

def claims : List Hash := [.ofNat 7, .ofNat 8]

def inspector : Inspector Unit := ⟨(), range, ⟨0, 60, 120⟩, ⟨.zero, 0⟩, 1⟩

/-- The contract of a game in progress that has not been challenged. -/
def chain (rootClaim claimsHash : Hash) : Unit → (what : Read) → Except Fault (what.Value Unit)
  | _, .status => .ok .inProgress
  | _, .claimCount => .ok 2
  | _, .l1Head => .ok .zero
  | _, .blockRange => .ok (0, 1)
  | _, .detectDuration => .ok 60
  | _, .clockDuration => .ok 120
  | _, .createdAt => .ok 0
  | _, .rootClaim => .ok rootClaim
  | _, .claimsHash => .ok claimsHash
  | _, .challenged _ => .ok false
  | _, .challengeSuccess => .ok false
  | _, .blockDistance => .ok 1
  | _, .claims _ => .ok claims
  | _, .parent => .ok none
  | _, .canResolveClaim => .ok false
  | _, .canResolve => .ok false

def fetched : (what : Fetch) → what.Value
  | .output block => output block
  | .outputs blocks => blocks.map output
  | .header hash => .bare hash (some 0)
  | .headerAt number => .bare (some .zero) number
  | .l1Block hash | .l2Block hash => ⟨.bare hash (some 0), []⟩
  | .receipts block => (.bare block (some 0), [])
  | .node _ | .code _ => []
  | .stateOutput _ => ⟨.zero, .zero, .zero⟩

/-- Nodes that answer every request. -/
def node : (q : Watch.Ask Unit) → Unit → Watch.Reply Unit q × Unit
  | .fetch what, s => (some (.ok (fetched what)), s)
  | .read .., s => (.error Cause.cancelled, s)
  | .validate _, s | .submit .., s => (.ok (), s)
  | .now, s => (0, s)
  | .stopping, s | .pause .., s => (false, s)
  | .notify _, s => ((), s)

def surroundings (rootClaim claimsHash : Hash) (now : UInt64) : Surroundings Unit Unit :=
  ⟨chain rootClaim claimsHash, now, node⟩

theorem succeeds (rootClaim claimsHash : Hash) (now : UInt64) (q : Watch.Ask Unit) (s : Unit) :
    Succeeds q ((surroundings rootClaim claimsHash now).answer q s).1 := by
  cases q with
  | fetch what => exact ⟨_, rfl⟩
  | read game what => cases what <;> exact ⟨_, rfl⟩
  | stopping => rfl
  | _ => trivial

theorem serves_fetched {γ : Type} (what : Fetch) :
    Serves (γ := γ) (OfChain root) (.fetch what) (some (.ok (fetched what))) := by
  cases what with
  | output block => exact ⟨rfl, rfl⟩
  | outputs blocks =>
    refine ⟨fun o ho => ?_, fun block hb => ⟨output block, List.mem_map_of_mem hb, rfl⟩⟩
    obtain ⟨block, -, rfl⟩ := List.mem_map.mp ho
    exact ⟨rfl, rfl⟩
  | _ => trivial

theorem truthful (rootClaim claimsHash : Hash) (now : UInt64) :
    (surroundings rootClaim claimsHash now).Truthful root := by
  intro q s
  cases q with
  | fetch what => exact serves_fetched what
  | _ => trivial

theorem aligned : range.Aligned := by decide

theorem length_claims : claims.length = range.positionCount := by decide

def cache : OutputCache := ⟨1, .empty 64⟩

theorem reachable : Reachable Unit (OfChain root) cache :=
  .fresh (show OutputCache.of 64 1 = .ok cache from rfl)

theorem commits (now : UInt64) :
    (surroundings (.ofNat 8) (Game.claimsHash claims) now).Commits () claims where
  rootClaim h := by cases h; rfl
  claimsHash h := by cases h; rfl
  claims h := by cases h; rfl

theorem roots_eq : range.positions.map root = [.ofNat 0, .ofNat 1] := by
  rw [range.positions_eq_map]
  rfl

set_option maxRecDepth 100000 in
/-- The first octets of the two commitments tell them apart. -/
theorem head_claimsHash :
    (Game.claimsHash [.ofNat 0, .ofNat 1]).bytes.head? = some 166 ∧
      (Game.claimsHash claims).bytes.head? = some 36 := by
  decide +kernel

set_option maxRecDepth 100000 in
theorem head_claimsHash_single : (Game.claimsHash [.ofNat 0]).bytes.head? = some 41 := by
  decide +kernel

theorem noCollision :
    NoCollision ((range.positions.map root).flatMap Hash.bytes) (claims.flatMap Hash.bytes) := by
  rw [roots_eq]
  apply Game.noCollision_of_head_ne
  rw [head_claimsHash.1, head_claimsHash.2]
  decide

/-- The last claim is looked at first, and is found to be wrong. -/
theorem inspects : inspector.inspect.Gives (surroundings (.ofNat 8) (Game.claimsHash claims) 5)
    cache () ⟨true, 1, false, false⟩ ⟨1, 64, [(1, output 1)]⟩ () := rfl

end Sample

variable {γ σ : Type} {env : Surroundings γ σ} {root : UInt64 → Hash} {claims : List Hash}
  {i : Inspector γ} {cache cache' : OutputCache} {s s' : σ}

/-- A finding of an inspection says what there is to be found. -/
theorem Inspector.sound_of_gives {finding : Game.Finding} (haligned : i.range.Aligned)
    (hlen : claims.length = i.range.positionCount) (htruth : env.Truthful root)
    (hcommits : env.Commits i.game claims) (hcache : cache.Holds (OfChain root))
    (hcol : NoCollision ((i.range.positions.map root).flatMap Hash.bytes)
      (claims.flatMap Hash.bytes))
    (hg : i.inspect.Gives env cache s finding cache' s') :
    if finding.mismatch then Located root i.range claims finding.target
    else ∀ k, ¬ Faulty root i.range claims k := by
  obtain ⟨fault, hfault, hfinding⟩ := gives_inspect_iff.mp hg
  have hsound := (Detects.of_gives hfault).sound haligned hlen htruth hcommits hcache hcol
  cases fault with
  | none =>
    subst hfinding
    exact hsound
  | some target =>
    obtain ⟨challenged, -, rfl⟩ := hfinding
    exact hsound

/-- Detection is complete and sound: the finding is there, and it is that of a mismatch exactly if
a claim is faulty. -/
theorem inspect_complete (haligned : i.range.Aligned)
    (hlen : claims.length = i.range.positionCount) (htruth : env.Truthful root)
    (hcommits : env.Commits i.game claims) (hcache : Reachable γ (OfChain root) cache)
    (hcol : NoCollision ((i.range.positions.map root).flatMap Hash.bytes)
      (claims.flatMap Hash.bytes))
    (hrounds : 0 < i.rounds)
    (hok : ∀ e ∈ (i.inspect cache).exchanges env.answer s, Succeeds e.ask e.reply) :
    ∃ finding cache' s', i.inspect.Gives env cache s finding cache' s' ∧
      (finding.mismatch = true ↔ ∃ k, Faulty root i.range claims k) ∧
      (finding.mismatch = true →
        finding.target.toNat < i.range.positionCount ∧
        Faulty root i.range claims finding.target.toNat ∧
        (Faulty root i.range claims i.range.endIndex.toNat → finding.target = i.range.endIndex) ∧
        (¬ Faulty root i.range claims i.range.endIndex.toNat →
          FirstFault root i.range claims finding.target.toNat)) := by
  have hholds := hcache.holds number_of_ofChain
  obtain ⟨finding, cache', s', hg, -⟩ :=
    (Inspector.delivers_inspect (hcommits.scannable hlen) hholds hrounds).gives (htruth.cooperates hok)
  have hsound := Inspector.sound_of_gives haligned hlen htruth hcommits hholds hcol hg
  refine ⟨finding, cache', s', hg, ?_, ?_⟩
  · cases hm : finding.mismatch with
    | true =>
      rw [if_pos hm] at hsound
      exact ⟨fun _ => ⟨_, hsound.faulty⟩, fun _ => rfl⟩
    | false =>
      rw [hm] at hsound
      exact ⟨fun h => (nomatch h), fun ⟨k, hk⟩ => absurd hk (hsound k)⟩
  · intro hm
    rw [if_pos hm] at hsound
    exact ⟨hlen ▸ hsound.faulty.lt, hsound.faulty, hsound.atEnd, hsound.first⟩

theorem inspect_complete_sample : ∃ finding cache' s',
    Sample.inspector.inspect.Gives
      (Sample.surroundings (.ofNat 8) (Game.claimsHash Sample.claims) 5) Sample.cache ()
      finding cache' s' ∧ finding.mismatch = true ∧ finding.target = 1 := by
  obtain ⟨finding, cache', s', hg, hm, ht⟩ := inspect_complete (i := Sample.inspector) (s := ())
    Sample.aligned Sample.length_claims (Sample.truthful _ _ 5) (Sample.commits 5) Sample.reachable
    Sample.noCollision Nat.one_pos (Program.exchanges_rely (Sample.succeeds _ _ 5))
  have hlast : Faulty Sample.root Sample.range Sample.claims Sample.range.endIndex.toNat :=
    ⟨.ofNat 8, rfl, by decide⟩
  have hmismatch := hm.mpr ⟨_, hlast⟩
  exact ⟨finding, cache', s', hg, hmismatch, (ht hmismatch).2.2.1 hlast⟩

/-- The target is the last claim if that is faulty and else the first faulty one; so it is the first
faulty one unless the last claim and an earlier one are faulty. -/
theorem target_first_iff {finding : Game.Finding} (haligned : i.range.Aligned)
    (hlen : claims.length = i.range.positionCount) (htruth : env.Truthful root)
    (hcommits : env.Commits i.game claims) (hcache : Reachable γ (OfChain root) cache)
    (hcol : NoCollision ((i.range.positions.map root).flatMap Hash.bytes)
      (claims.flatMap Hash.bytes))
    (hg : i.inspect.Gives env cache s finding cache' s') (hm : finding.mismatch = true) :
    (Faulty root i.range claims i.range.endIndex.toNat → finding.target = i.range.endIndex) ∧
      (¬ Faulty root i.range claims i.range.endIndex.toNat →
        FirstFault root i.range claims finding.target.toNat) ∧
      (FirstFault root i.range claims finding.target.toNat ↔
        (Faulty root i.range claims i.range.endIndex.toNat →
          ∀ k < i.range.endIndex.toNat, ¬ Faulty root i.range claims k)) := by
  have hsound := Inspector.sound_of_gives haligned hlen htruth hcommits
    (hcache.holds number_of_ofChain) hcol hg
  rw [if_pos hm] at hsound
  refine ⟨hsound.atEnd, hsound.first, fun hfirst hlast => ?_, fun hearlier => ?_⟩
  · rw [← hsound.atEnd hlast]
    exact hfirst.2
  · by_cases hlast : Faulty root i.range claims i.range.endIndex.toNat
    · refine ⟨hsound.faulty, ?_⟩
      rw [hsound.atEnd hlast]
      exact hearlier hlast
    · exact hsound.first hlast

theorem target_first_iff_sample :
    ¬ FirstFault Sample.root Sample.range Sample.claims 1 := by
  have h := target_first_iff (i := Sample.inspector) Sample.aligned Sample.length_claims
    (Sample.truthful _ _ 5) (Sample.commits 5) Sample.reachable Sample.noCollision Sample.inspects rfl
  intro hfirst
  refine h.2.2.mp hfirst ?_ 0 (by decide) ?_
  · exact ⟨.ofNat 8, rfl, by decide⟩
  · exact ⟨.ofNat 7, rfl, by decide⟩

/-- With both claims faulty the target is the last one and not the first. -/
theorem target_not_always_first :
    ¬ ∀ (env : Surroundings Unit Unit) (root : UInt64 → Hash) (claims : List Hash)
      (i : Inspector Unit) (cache cache' : OutputCache) (finding : Game.Finding),
      i.range.Aligned → claims.length = i.range.positionCount → env.Truthful root →
      env.Commits i.game claims → Reachable Unit (OfChain root) cache →
      NoCollision ((i.range.positions.map root).flatMap Hash.bytes)
        (claims.flatMap Hash.bytes) →
      i.inspect.Gives env cache () finding cache' () → finding.mismatch = true →
      FirstFault root i.range claims finding.target.toNat := by
  intro h
  have hfirst := h _ Sample.root Sample.claims Sample.inspector Sample.cache _ _ Sample.aligned
    Sample.length_claims (Sample.truthful _ _ 5) (Sample.commits 5) Sample.reachable
    Sample.noCollision Sample.inspects rfl
  exact hfirst.2 0 (by decide) ⟨.ofNat 7, rfl, by decide⟩

end Watchtower
