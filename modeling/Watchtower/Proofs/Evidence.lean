import Watchtower.Proofs.Challenge

/-!
# The evidence for a challenge inside the range

The game's root claim is the output of the last block, so a fault has to be found inside the range.
Three things are compared there: the roots of the outputs loaded, the hash that the contract keeps,
and the claims found in the call data. The nodes may answer anything.

* `Loads` : the outputs that an inspection loads for the range;
* `Disagrees` : the claims in the call data are as many as the outputs, and differ from them first
  at the block that an index stands for;
* `fault_evidence` : no fault is found unless both the hash and the claims speak against the roots.
  Whether the claims have the hash that the contract keeps is not looked at
  (`fault_without_committed_claims`).
-/

namespace Watchtower

open Work OutputCache

variable {γ σ : Type} {env : Surroundings γ σ} {i : Inspector γ} {cache : OutputCache} {s : σ}

namespace Inspector

/-- The root claim is the root of the output loaded for the last block. -/
def AgreesAtEnd (env : Surroundings γ σ) (i : Inspector γ) (cache : OutputCache) (s : σ) : Prop :=
  ∀ {claim last c t}, env.chain i.game .rootClaim = .ok claim →
    (loadOne i.range.last).Gives env cache s last c t → claim = last.root

def Loads (env : Surroundings γ σ) (i : Inspector γ) (cache : OutputCache) (s : σ)
    (outputs : List Rollup.Output) : Prop :=
  ∃ last c t c' t', (loadOne i.range.last).Gives env cache s last c t ∧
    (loadRange i.rounds i.range).Gives env c t outputs c' t'

def Disagrees (env : Surroundings γ σ) (i : Inspector γ) (outputs : List Rollup.Output)
    (index : UInt64) : Prop :=
  ∃ claimed, env.chain i.game (.claims i.head) = .ok claimed ∧
    outputs.length = claimed.length ∧ ∃ k : Fin outputs.length,
      Game.Parts (outputs.map Rollup.Output.root) claimed k ∧
      index = i.range.indexOf (outputs.get k).number

/-- What a detection compares if the last block is as claimed. -/
theorem compares_of_detects {fault : Option UInt64} {cache' : OutputCache} {s' : σ}
    (hend : i.AgreesAtEnd env cache s)
    (h : Detects env i.rounds i.game i.range i.head cache s fault cache' s') :
    ∃ outputs committed, i.Loads env cache s outputs ∧
      env.chain i.game .claimsHash = .ok committed ∧
      match fault with
      | none => Game.claimsHash (outputs.map Rollup.Output.root) = committed
      | some index => Game.claimsHash (outputs.map Rollup.Output.root) ≠ committed ∧
          i.Disagrees env outputs index := by
  cases h with
  | last hclaim hlast hne => exact absurd (hend hclaim hlast) hne
  | nowhere hclaim hlast hload hhash =>
    exact ⟨_, _, ⟨_, _, _, _, _, hlast, hload⟩, hhash, rfl⟩
  | @inside _ _ _ _ _ _ _ _ k hclaim hlast hload hhash hne hclaimed hlen hparts =>
    exact ⟨_, _, ⟨_, _, _, _, _, hlast, hload⟩, hhash, hne, _, hclaimed, hlen, k, hparts, rfl⟩

end Inspector

open Inspector in
/-- If the last block is as claimed, an inspection that does not fail has compared the roots loaded
with the hash that the contract keeps. It finds no fault if they have that hash; otherwise the claims
in the call data are as many as the roots and differ, first where the finding says. A challenge is
signalled on such a finding only. -/
theorem fault_evidence (hend : i.AgreesAtEnd env cache s) :
    (∀ {finding cache' s'}, i.inspect.Gives env cache s finding cache' s' →
      ∃ outputs committed, i.Loads env cache s outputs ∧
        env.chain i.game .claimsHash = .ok committed ∧
        (finding.mismatch = false →
          Game.claimsHash (outputs.map Rollup.Output.root) = committed) ∧
        (finding.mismatch = true →
          Game.claimsHash (outputs.map Rollup.Output.root) ≠ committed ∧
            i.Disagrees env outputs finding.target)) ∧
    (∀ {actions cache' s' index}, i.act.Gives env cache s actions cache' s' →
      .challenge index ∈ actions →
      ∃ outputs committed, i.Loads env cache s outputs ∧
        env.chain i.game .claimsHash = .ok committed ∧
        Game.claimsHash (outputs.map Rollup.Output.root) ≠ committed ∧
        i.Disagrees env outputs index) := by
  constructor
  · intro finding cache' s' hg
    obtain ⟨fault, hdetect, hfinding⟩ := gives_inspect_iff.mp hg
    obtain ⟨outputs, committed, hloads, hcommitted, hcompared⟩ :=
      compares_of_detects hend (.of_gives hdetect)
    refine ⟨outputs, committed, hloads, hcommitted, ?_⟩
    cases fault with
    | none =>
      subst hfinding
      exact ⟨fun _ => hcompared, fun h => (nomatch h)⟩
    | some index =>
      obtain ⟨challenged, -, rfl⟩ := hfinding
      exact ⟨fun h => (nomatch h), fun _ => hcompared⟩
  · intro actions cache' s' index hg hm
    obtain ⟨c, t, hr, -⟩ := ((Acts.of_gives hg).challenge_mem_iff index).mp hm
    exact compares_of_detects hend (.of_gives hr.detected)

namespace Sample

/-! The contract keeps the zero word as the hash, and the root claim is right. -/

theorem agreesAtEnd : inspector.AgreesAtEnd (surroundings (.ofNat 1) .zero 5) Sample.cache () := by
  intro claim last c t hclaim hlast
  obtain ⟨hroot, -⟩ := (truthful (.ofNat 1) .zero 5).loadOne_root
    (reachable.holds number_of_ofChain) hlast
  rw [hroot]
  exact (Except.ok.inj hclaim).symm

theorem claimsHash_ne_zero :
    Game.claimsHash (range.positions.map root) ≠ .zero ∧ Game.claimsHash claims ≠ .zero := by
  obtain ⟨hroots, hclaims⟩ := head_claimsHash
  rw [← roots_eq] at hroots
  constructor
  · intro h
    rw [h] at hroots
    exact absurd hroots (by decide)
  · intro h
    rw [h] at hclaims
    exact absurd hclaims (by decide)

theorem inspects_inside : ∃ finding cache' s',
    inspector.inspect.Gives (surroundings (.ofNat 1) .zero 5) Sample.cache () finding cache' s' ∧
      finding.mismatch = true := by
  have hholds := reachable.holds number_of_ofChain
  have hscan : (surroundings (.ofNat 1) .zero 5).Scannable root () range ⟨.zero, 0⟩ := by
    intro committed claimed _ _ hclaimed
    obtain rfl := Except.ok.inj hclaimed
    refine ⟨length_claims.symm, fun h => ?_⟩
    rw [roots_eq] at h
    exact absurd h (by decide)
  obtain ⟨finding, cache', s', hg, -⟩ := (Inspector.delivers_inspect (i := inspector) hscan hholds
    Nat.one_pos).gives ((truthful _ _ 5).cooperates (Program.exchanges_rely (succeeds _ _ 5)))
  refine ⟨finding, cache', s', hg, ?_⟩
  obtain ⟨fault, hdetect, hfinding⟩ := Inspector.gives_inspect_iff.mp hg
  obtain ⟨outputs, committed, ⟨_, _, _, _, _, hlast, hload⟩, hcommitted, hcompared⟩ :=
    Inspector.compares_of_detects agreesAtEnd (.of_gives hdetect)
  cases fault with
  | none =>
    obtain ⟨-, hc⟩ := (truthful _ _ 5).loadOne_root hholds hlast
    obtain ⟨-, hroots⟩ := (truthful _ _ 5).loadRange_roots hc hload
    obtain rfl := Except.ok.inj hcommitted
    rw [hroots] at hcompared
    exact absurd hcompared claimsHash_ne_zero.1
  | some index =>
    obtain ⟨challenged, -, rfl⟩ := hfinding
    rfl

end Sample

open Sample in
theorem fault_evidence_sample : ∃ outputs index,
    inspector.Loads (surroundings (.ofNat 1) .zero 5) Sample.cache () outputs ∧
      inspector.Disagrees (surroundings (.ofNat 1) .zero 5) outputs index := by
  obtain ⟨finding, cache', s', hg, hm⟩ := inspects_inside
  obtain ⟨outputs, committed, hloads, -, -, hfault⟩ := (fault_evidence agreesAtEnd).1 hg
  exact ⟨outputs, finding.target, hloads, (hfault hm).2⟩

/-- A fault is found although the claims do not have the hash that the contract keeps. -/
theorem fault_without_committed_claims :
    ¬ ∀ (env : Surroundings Unit Unit) (i : Inspector Unit) (cache cache' : OutputCache)
      (claimed : List Hash) (committed : Hash) (finding : Game.Finding),
      i.AgreesAtEnd env cache () → env.chain i.game (.claims i.head) = .ok claimed →
      env.chain i.game .claimsHash = .ok committed → Game.claimsHash claimed ≠ committed →
      i.inspect.Gives env cache () finding cache' () → finding.mismatch = false := by
  intro h
  obtain ⟨finding, cache', s', hg, hm⟩ := Sample.inspects_inside
  have hclean := h _ Sample.inspector Sample.cache cache' Sample.claims .zero finding
    Sample.agreesAtEnd rfl rfl Sample.claimsHash_ne_zero.2 hg
  exact nomatch hm.symm.trans hclean

end Watchtower
