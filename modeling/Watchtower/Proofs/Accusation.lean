import Watchtower.Proofs.Challenge

/-!
# Whether a challenged claim is faulty

The node is truthful. The last block of the range need not be a position; only if it is one, the
root claim is to be the last claim.

* `Publishes env i claims` : what the contract answers about the claims is about `claims`;
* `Accuses root i rootClaim claims index` : what the inspector has against the claim at `index`: with
  a right root claim it is the first faulty one, with a wrong one it is the last, whatever that says;
* `challenged_faulty_iff` : so a challenged claim is faulty exactly if the root claim is right or the
  last claim is faulty. If the last block is a position it always is;
* `challenges_right_claim` : if it is not, a wrong root claim is held against a claim that is right.
-/

namespace Watchtower

open Work OutputCache

section
variable {γ σ : Type} {env : Surroundings γ σ} {root : UInt64 → Hash} {claims : List Hash}
  {i : Inspector γ} {cache cache' : OutputCache} {s s' : σ} {index : UInt64}

structure Publishes (env : Surroundings γ σ) (i : Inspector γ) (claims : List Hash) : Prop where
  rootClaim : i.range.Aligned →
    ∀ {claim}, env.chain i.game .rootClaim = .ok claim → claims.getLast? = some claim
  claimsHash : ∀ {hash}, env.chain i.game .claimsHash = .ok hash → hash = Game.claimsHash claims
  claims : ∀ {list}, env.chain i.game (.claims i.head) = .ok list → list = claims

structure Accuses (root : UInt64 → Hash) (i : Inspector γ) (rootClaim : Hash)
    (claims : List Hash) (index : UInt64) : Prop where
  inside : rootClaim = root i.range.last → FirstFault root i.range claims index.toNat
  atEnd : rootClaim ≠ root i.range.last → index = i.range.endIndex

theorem Accuses.of_detects (hlen : claims.length = i.range.positionCount)
    (htruth : env.Truthful root) (hpublishes : Publishes env i claims)
    (hcache : cache.Holds (OfChain root)) {rootClaim : Hash}
    (hclaim : env.chain i.game .rootClaim = .ok rootClaim)
    (h : Detects env i.rounds i.game i.range i.head cache s (some index) cache' s') :
    Accuses root i rootClaim claims index := by
  cases h with
  | last hclaim' hlast hne =>
    obtain ⟨hroot, -⟩ := htruth.loadOne_root hcache hlast
    obtain rfl := Except.ok.inj (hclaim.symm.trans hclaim')
    rw [hroot] at hne
    exact ⟨fun heq => absurd heq hne, fun _ => rfl⟩
  | inside hclaim' hlast hload _ _ hclaimed _ hparts =>
    obtain ⟨hroot, hc⟩ := htruth.loadOne_root hcache hlast
    obtain rfl := Except.ok.inj (hclaim.symm.trans hclaim')
    obtain ⟨hnumbers, hroots⟩ := htruth.loadRange_roots hc hload
    rw [hpublishes.claims hclaimed] at hparts
    have hfirst := firstFault_of_parts hlen hnumbers hroots hparts
    exact ⟨fun _ => hfirst, fun hne => absurd hroot hne⟩

theorem Accuses.lt (h : Accuses root i rootClaim claims index)
    (hlen : claims.length = i.range.positionCount) : index.toNat < i.range.positionCount := by
  have hend := i.range.toNat_endIndex
  by_cases hright : rootClaim = root i.range.last
  · rw [← hlen]
    exact (h.inside hright).1.lt
  · rw [h.atEnd hright]
    omega

theorem Accuses.faulty_iff (h : Accuses root i rootClaim claims index) :
    Faulty root i.range claims index.toNat ↔
      rootClaim = root i.range.last ∨ Faulty root i.range claims i.range.endIndex.toNat := by
  by_cases hright : rootClaim = root i.range.last
  · have hfaulty := (h.inside hright).1
    exact ⟨fun _ => .inl hright, fun _ => hfaulty⟩
  · rw [h.atEnd hright, or_iff_right hright]

/-- A challenge is of one of the claims. It is of a faulty one exactly if the root claim is right or
the last claim is faulty; so always if the last block is a position, and else unless it is for a
wrong root claim that the last claim is challenged. -/
theorem challenged_faulty_iff {actions : List Game.Action}
    (hlen : claims.length = i.range.positionCount) (htruth : env.Truthful root)
    (hpublishes : Publishes env i claims) (hcache : Reachable γ (OfChain root) cache)
    (hg : i.act.Gives env cache s actions cache' s') (hm : .challenge index ∈ actions) :
    index.toNat < i.range.positionCount ∧
    (i.range.Aligned → Faulty root i.range claims index.toNat) ∧
    ∃ rootClaim, env.chain i.game .rootClaim = .ok rootClaim ∧
      (Faulty root i.range claims index.toNat ↔
        rootClaim = root i.range.last ∨ Faulty root i.range claims i.range.endIndex.toNat) ∧
      (rootClaim = root i.range.last → FirstFault root i.range claims index.toNat) ∧
      (rootClaim ≠ root i.range.last → index = i.range.endIndex) := by
  obtain ⟨c, t, hreports, -⟩ := ((Inspector.Acts.of_gives hg).challenge_mem_iff index).mp hm
  have hdetects := Detects.of_gives hreports.detected
  obtain ⟨rootClaim, hclaim⟩ := hdetects.rootClaim_read
  have haccuses := Accuses.of_detects hlen htruth hpublishes (hcache.holds number_of_ofChain)
    hclaim hdetects
  refine ⟨haccuses.lt hlen, fun haligned => ?_, rootClaim, hclaim, haccuses.faulty_iff,
    haccuses.inside, haccuses.atEnd⟩
  rw [haccuses.faulty_iff, faulty_last_iff haligned hlen (hpublishes.rootClaim haligned hclaim)]
  exact Classical.em _

end

namespace Sample

theorem publishes : Publishes (surroundings (.ofNat 8) (Game.claimsHash claims) 5) inspector claims where
  rootClaim _ _ h := (commits 5).rootClaim h
  claimsHash h := (commits 5).claimsHash h
  claims h := (commits 5).claims h

end Sample

open Sample in
/-- The last block is a position; the last claim is challenged, and is faulty. -/
theorem challenged_faulty_iff_sample : Faulty root range claims (1 : UInt64).toNat := by
  obtain ⟨cache', s', hg⟩ := ticks_run.gives early List.mem_cons_self [.challenge 1] rfl
  have h := challenged_faulty_iff (i := inspector) length_claims (truthful _ _ 5) publishes reachable
    hg (List.mem_singleton_self _)
  exact h.2.1 aligned

namespace Sample

/-! ## A game whose last block is no position

Blocks 0 and 1 with a stride of 2: the one claim is about block 0, and right. The root claim is about
block 1, and wrong. -/

def offStride : Inspector Unit := ⟨(), ⟨0, 1, 2, range.first_le_last, two_ne_zero⟩, ⟨0, 60, 120⟩, ⟨.zero, 0⟩, 1⟩

def wrongEnd : Surroundings Unit Unit where
  chain game what := match what with
    | .claims _ => .ok [root 0]
    | what => chain (.ofNat 8) (Game.claimsHash [root 0]) game what
  clock := 5
  node := node

theorem truthful_wrongEnd : wrongEnd.Truthful root := by
  intro q s
  cases q with
  | fetch what => exact serves_fetched what
  | _ => trivial

theorem not_aligned_offStride : ¬ offStride.range.Aligned := by decide

theorem publishes_wrongEnd : Publishes wrongEnd offStride [root 0] where
  rootClaim haligned := absurd haligned not_aligned_offStride
  claimsHash h := by cases h; rfl
  claims h := by cases h; rfl

theorem noCollision_offStride :
    NoCollision ((offStride.range.positions.map root).flatMap Hash.bytes)
      ([root 0].flatMap Hash.bytes) := by
  have hroots : offStride.range.positions.map root = [root 0] := by
    rw [offStride.range.positions_eq_map]
    decide
  rw [hroots]
  exact fun _ => rfl

theorem right_claim : ¬ Faulty root offStride.range [root 0] 0 := by
  rintro ⟨claim, hclaim, hne⟩
  obtain rfl := Option.some.inj hclaim
  exact hne rfl

end Sample

open Sample in
/-- The only claim is right, and is challenged. -/
theorem challenges_right_claim :
    ¬ ∀ (env : Surroundings Unit Unit) (root : UInt64 → Hash) (claims : List Hash)
      (i : Inspector Unit) (cache cache' : OutputCache) (actions : List Game.Action)
      (index : UInt64), claims.length = i.range.positionCount → env.Truthful root →
      Publishes env i claims → Reachable Unit (OfChain root) cache →
      NoCollision ((i.range.positions.map root).flatMap Hash.bytes)
        (claims.flatMap Hash.bytes) →
      i.act.Gives env cache () actions cache' () → .challenge index ∈ actions →
      index.toNat < i.range.positionCount ∧ Faulty root i.range claims index.toNat := by
  intro h
  have hfaulty := h wrongEnd root [root 0] offStride Sample.cache ⟨1, 64, [(1, output 1)]⟩
    [.challenge 0] 0 (by decide) truthful_wrongEnd publishes_wrongEnd reachable
    noCollision_offStride rfl (List.mem_singleton_self _)
  exact right_claim hfaulty.2

end Watchtower
