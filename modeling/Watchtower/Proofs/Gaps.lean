import Mathlib.Data.List.Sort
import Watchtower.Proofs.Finding

/-!
# A gap in what the node answers

A node may leave blocks out of a batch, and add to it what it likes. It is trusted only with the
outputs that are taken of its answers.

* `upholds_loadRange_vouched` : what the node leaves out makes a load shorter, and nothing else. The
  outputs loaded are good, in order, and each for another position of the range;
* `Becomes rely cache later` : the cache is used, any number of times, and is `later` then.
  `FromFresh rely cache` : a fresh cache becomes this one. All that it holds is good
  (`FromFresh.holds`), so a gap leaves no trace;
* `Presents env i root claims` : the root claim is that of the chain, and the contract keeps the hash
  of `claims`;
* `Answer root range claims` : what is to be said of the claims: that none is faulty, or which is the
  first that is;
* `gap_is_no_verdict` : a detection whose load has a gap fails, and a later one without a gap says
  the same as one that was never preceded by it.
-/

namespace Watchtower

open Work OutputCache

section
variable {γ σ : Type} {good : UInt64 → Rollup.Output → Prop} {cache cache' : OutputCache}

/-! ## Loads -/

/-- No block is taken more often than it is asked for. -/
theorem OutputCache.subperm_taken (outputs : List Rollup.Output) (requested : List UInt64) :
    ((taken requested outputs).map Rollup.Output.number).Subperm requested := by
  induction outputs generalizing requested with
  | nil => exact List.nil_subperm
  | cons output outputs ih =>
    rw [taken]
    split
    · next hm =>
      have hrest := (List.subperm_cons output.number).mpr (ih (requested.erase output.number))
      exact hrest.trans (List.perm_cons_erase hm).symm.subperm
    · exact ih requested

section
variable (numbered : ∀ block output, good block output → output.number = block)
include numbered

theorem upholds_loadRange_vouched (rounds : Nat) (range : Game.Range) (hc : cache.Holds good) :
    (loadRange rounds range).Upholds (Vouches (γ := γ) good) cache fun r c => c.Holds good ∧
      IfValue (fun outputs => (outputs.map Rollup.Output.number).Sublist range.positions ∧
        ∀ o ∈ outputs, good o.number o) r := by
  have hload : (loadRange rounds range).Upholds (Vouches (γ := γ) good) cache _ :=
    upholds_loadRange_of numbered (P := fun missing outputs =>
      (outputs.map Rollup.Output.number).Subperm missing) rounds range (fun missing c hn hc => by
      refine upholds_loadMissing rounds (fun _ => List.nil_subperm) (fun outputs hs => ?_) hc
      exact ⟨good_of_mem_taken hn hs, subperm_taken outputs missing⟩) hc
  refine hload.imp ?_
  rintro (fault | outputs) c ⟨hc, hvalue⟩
  · exact ⟨hc, trivial⟩
  obtain ⟨hgood, hits, missing, fetched, rfl, hperm, hp⟩ := hvalue
  refine ⟨hc, ?_, hgood⟩
  have hsub : ((hits ++ fetched).map Rollup.Output.number).Subperm range.positions := by
    rw [List.map_append]
    exact ((List.subperm_append_left _).mpr hp).trans hperm.subperm
  have hascending : ((ascending (hits ++ fetched)).map Rollup.Output.number).Subperm
      range.positions :=
    ((perm_ascending _).map _).subperm.trans hsub
  exact List.sublist_of_subperm_of_pairwise hascending (pairwise_ascending _)
    (range.pairwise_positions.imp fun h => UInt64.le_of_lt h)

/-- Whatever a cache is used in, what it holds stays good. -/
theorem keeps_vouched {α : Type} {x : Work γ α} (h : Use x) :
    x.Keeps (Vouches good) (Holds good) := by
  refine keeps_use (fun block cache hc => ?_) (fun rounds range cache hc => ?_) h
  · exact (upholds_loadOne_vouched numbered block hc).imp fun _ _ h => h.1
  · exact (upholds_loadRange_vouched numbered rounds range hc).imp fun _ _ h => h.1

end

/-! ## From one cache to a later one -/

/-- The work that the cache is used in may fail. -/
inductive Becomes (rely : (Watch γ).Rely) (cache : OutputCache) : OutputCache → Prop
  | same : Becomes rely cache cache
  | used {α : Type} {x : Work γ α} {c c' : OutputCache} {trace : List (Exchange (Watch γ))}
      {result : Except Fault α} (before : Becomes rely cache c) (use : Use x)
      (run : (x c).Yields trace (result, c')) (served : ∀ e ∈ trace, rely e.ask e.reply) :
      Becomes rely cache c'

/-- A fresh cache of any capacity and stride becomes this one. -/
def FromFresh (rely : (Watch γ).Rely) (cache : OutputCache) : Prop :=
  ∃ capacity stride fresh, OutputCache.of capacity stride = .ok fresh ∧ Becomes rely fresh cache

theorem Becomes.imp {rely rely' : (Watch γ).Rely} (h : Becomes rely cache cache')
    (hr : ∀ q reply, rely q reply → rely' q reply) : Becomes rely' cache cache' := by
  induction h with
  | same => exact .same
  | used _ use run served ih => exact .used ih use run fun e he => hr _ _ (served e he)

theorem FromFresh.imp {rely rely' : (Watch γ).Rely} (h : FromFresh rely cache)
    (hr : ∀ q reply, rely q reply → rely' q reply) : FromFresh rely' cache := by
  obtain ⟨capacity, stride, fresh, hof, hbecomes⟩ := h
  exact ⟨capacity, stride, fresh, hof, hbecomes.imp hr⟩

section
variable (numbered : ∀ block output, good block output → output.number = block)
include numbered

theorem Becomes.holds (h : Becomes (γ := γ) (Vouches good) cache cache') (hc : cache.Holds good) :
    cache'.Holds good := by
  induction h with
  | same => exact hc
  | used _ use run served ih =>
    have hkeeps := keeps_vouched numbered use _ ih
    exact Program.Meets.of_yields hkeeps run served

theorem FromFresh.holds (h : FromFresh (γ := γ) (Vouches good) cache) : cache.Holds good := by
  obtain ⟨capacity, stride, fresh, hof, hbecomes⟩ := h
  exact hbecomes.holds numbered (holds_of hof)

end

/-! ## What is to be said of the claims -/

variable {root : UInt64 → Hash} {range : Game.Range} {claims : List Hash}

def Answer (root : UInt64 → Hash) (range : Game.Range) (claims : List Hash) :
    Option UInt64 → Prop
  | none => ∀ k, ¬ Faulty root range claims k
  | some index => FirstFault root range claims index.toNat

theorem FirstFault.unique {j k : Nat} (hj : FirstFault root range claims j)
    (hk : FirstFault root range claims k) : j = k := by
  rcases Nat.lt_trichotomy j k with h | h | h
  · exact absurd hj.1 (hk.2 j h)
  · exact h
  · exact absurd hk.1 (hj.2 k h)

theorem Answer.unique {answer answer' : Option UInt64} (h : Answer root range claims answer)
    (h' : Answer root range claims answer') : answer = answer' := by
  cases answer with
  | none =>
    cases answer' with
    | none => rfl
    | some index => exact absurd h'.1 (h _)
  | some index =>
    cases answer' with
    | none => exact absurd h.1 (h' _)
    | some index' =>
      have hindex := FirstFault.unique h h'
      rw [UInt64.toNat_inj.mp hindex]

/-! ## The game -/

variable {env : Surroundings γ σ} {i : Inspector γ} {s : σ}

/-- All of it can be read but perhaps the claims. -/
structure Presents (env : Surroundings γ σ) (i : Inspector γ) (root : UInt64 → Hash)
    (claims : List Hash) : Prop where
  rootClaim : env.chain i.game .rootClaim = .ok (root i.range.last)
  claimsHash : env.chain i.game .claimsHash = .ok (Game.claimsHash claims)
  claims : ∀ {list}, env.chain i.game (.claims i.head) = .ok list → list = claims

/-- The hash does not confuse the claims with the roots of the chain at some of the positions. -/
def Distinct (root : UInt64 → Hash) (range : Game.Range) (claims : List Hash) : Prop :=
  ∀ blocks : List UInt64, blocks.Sublist range.positions →
    NoCollision ((blocks.map root).flatMap Hash.bytes) (claims.flatMap Hash.bytes)

theorem Presents.scannable (h : Presents env i root claims)
    (hlen : claims.length = i.range.positionCount) :
    env.Scannable root i.game i.range i.head := by
  intro committed claimed hcommitted hne hclaimed
  rw [h.claimsHash] at hcommitted
  obtain rfl := Except.ok.inj hcommitted
  obtain rfl := h.claims hclaimed
  exact ⟨hlen.symm, fun he => hne (congrArg Game.claimsHash he)⟩

/-! ## A detection without a gap -/

/-- Nothing fails, and the node leaves nothing out. -/
structure Unhindered (env : Surroundings γ σ) (i : Inspector γ) (root : UInt64 → Hash)
    (claims : List Hash) (cache : OutputCache) (s : σ) : Prop where
  presents : Presents env i root claims
  fills : ∀ q s, Fills (OfChain root) q (env.answer q s).1
  succeeds : ∀ e ∈ (i.detect cache).exchanges env.answer s, Succeeds e.ask e.reply

theorem Unhindered.exists_gives (h : Unhindered env i root claims cache s)
    (hlen : claims.length = i.range.positionCount) (hrounds : 0 < i.rounds)
    (hcache : cache.Holds (OfChain root)) :
    ∃ answer c t, i.detect.Gives env cache s answer c t := by
  let rely : (Watch γ).Rely := fun q reply =>
    Succeeds q reply ∧ Fills (OfChain root) q reply ∧ env.Agrees q reply
  have hone {c : OutputCache} (hc : c.Holds (OfChain root)) :
      (loadOne i.range.last).Delivers rely c fun _ c => c.Holds (OfChain root) := by
    have hdelivers : (loadOne i.range.last).Delivers rely c fun _ _ => True :=
      (delivers_loadOne i.range.last).restrict fun _ _ hq => hq.1
    have hupholds : (loadOne i.range.last).Upholds rely c _ :=
      (upholds_loadOne_vouched number_of_ofChain i.range.last hc).restrict fun _ _ hq => hq.2.1.1
    exact (hdelivers.and_upholds hupholds).imp fun last c hc => hc.2.1
  have hrange (c : OutputCache) (hc : c.Holds (OfChain root)) :
      (loadRange i.rounds i.range).Delivers rely c fun outputs _ =>
        outputs.map Rollup.Output.root = i.range.positions.map root := by
    have hdelivers : (loadRange i.rounds i.range).Delivers rely c fun _ _ => True :=
      (delivers_loadRange hrounds i.range).restrict fun _ _ hq => hq.1
    have hupholds : (loadRange i.rounds i.range).Upholds rely c _ :=
      (upholds_loadRange_filled number_of_ofChain i.rounds i.range hc).restrict
        fun _ _ hq => hq.2.1
    exact (hdelivers.and_upholds hupholds).imp fun outputs c hc => roots_of_ofChain hc.2.2
  have hdetects : i.detect.Delivers rely cache fun _ _ => True := by
    refine delivers_detectFault_of (Holds (OfChain root)) (h.presents.scannable hlen) ?_
      (hone hcache) hrange
    rintro what reply ⟨⟨v, rfl⟩, -, ha⟩
    exact ⟨v, rfl, Eq.symm ha⟩
  obtain ⟨answer, c, t, hg, -⟩ := hdetects.gives fun e he =>
    ⟨h.succeeds e he, Program.exchanges_rely h.fills e he,
      Program.exchanges_rely env.agrees_answer e he⟩
  exact ⟨answer, c, t, hg⟩

theorem Unhindered.answer_of_gives (h : Unhindered env i root claims cache s)
    (hlen : claims.length = i.range.positionCount) (hcol : Distinct root i.range claims)
    (hcache : cache.Holds (OfChain root)) {answer : Option UInt64} {c : OutputCache} {t : σ}
    (hg : i.detect.Gives env cache s answer c t) : Answer root i.range claims answer := by
  have hone {last : Rollup.Output} {c : OutputCache} {t : σ}
      (hlast : (loadOne i.range.last).Gives env cache s last c t) :=
    (upholds_loadOne_vouched number_of_ofChain i.range.last hcache).of_gives
      (fun q s => (h.fills q s).1) hlast
  have hrange {outputs : List Rollup.Output} {c c' : OutputCache} {t t' : σ}
      (hc : c.Holds (OfChain root))
      (hload : (loadRange i.rounds i.range).Gives env c t outputs c' t') :=
    ((upholds_loadRange_filled number_of_ofChain i.rounds i.range hc).of_gives h.fills hload).2
  cases Detects.of_gives hg with
  | last hclaim hlast hne =>
    obtain ⟨-, -, hroot⟩ := hone hlast
    rw [h.presents.rootClaim, ← hroot] at hclaim
    exact absurd (Except.ok.inj hclaim).symm hne
  | nowhere hclaim hlast hload hhash =>
    have hloaded := hrange (hone hlast).1 hload
    rw [h.presents.claimsHash, roots_of_ofChain hloaded] at hhash
    have heq := (Game.claimsHash_eq_iff (hcol _ (.refl _))).mp (Except.ok.inj hhash).symm
    exact not_faulty_of_eq hlen heq
  | inside hclaim hlast hload _ _ hclaimed _ hparts =>
    have hloaded := hrange (hone hlast).1 hload
    rw [h.presents.claims hclaimed] at hparts
    exact firstFault_of_parts hlen hloaded.1 (roots_of_ofChain hloaded) hparts

/-! ## A detection with a gap -/

theorem length_lt_of_gap {outputs : List Rollup.Output}
    (hsub : (outputs.map Rollup.Output.number).Sublist range.positions)
    (hgap : ∃ block ∈ range.positions, ∀ o ∈ outputs, o.number ≠ block) :
    outputs.length < range.positionCount := by
  have hle := hsub.length_le
  rw [List.length_map, Game.Range.length_positions] at hle
  refine Nat.lt_of_le_of_ne hle fun heq => ?_
  -- As many numbers as positions would be the positions, all of them.
  have hall : outputs.map Rollup.Output.number = range.positions := by
    apply hsub.eq_of_length
    rw [List.length_map, Game.Range.length_positions, heq]
  obtain ⟨block, hblock, hnone⟩ := hgap
  rw [← hall] at hblock
  obtain ⟨o, ho, hnumber⟩ := List.mem_map.mp hblock
  exact hnone o ho hnumber

/-- The roots at some of the positions do not pass for the claims. -/
theorem Distinct.hash_ne (hcol : Distinct root range claims)
    (hlen : claims.length = range.positionCount) {outputs : List Rollup.Output}
    (hsub : (outputs.map Rollup.Output.number).Sublist range.positions)
    (hgood : ∀ o ∈ outputs, OfChain root o.number o)
    (hshort : outputs.length < range.positionCount) :
    Game.claimsHash (outputs.map Rollup.Output.root) ≠ Game.claimsHash claims := by
  have hroots : outputs.map Rollup.Output.root = (outputs.map Rollup.Output.number).map root := by
    rw [List.map_map]
    exact List.map_congr_left fun o ho => (hgood o ho).2
  intro he
  rw [hroots, Game.claimsHash_eq_iff (hcol _ hsub), ← hroots] at he
  have hcount := congrArg List.length he
  rw [List.length_map] at hcount
  omega

/-- Too few outputs, whose roots do not have the hash, are refused: for their count, or before that
because the claims cannot be read. -/
theorem fails_of_length_ne {last : Rollup.Output} {outputs : List Rollup.Output}
    {c c' : OutputCache} {t t' : σ} (hpresents : Presents env i root claims)
    (hlast : (loadOne i.range.last).Gives env cache s last c t)
    (hroot : last.root = root i.range.last)
    (hload : (loadRange i.rounds i.range).Gives env c t outputs c' t')
    (hne : Game.claimsHash (outputs.map Rollup.Output.root) ≠ Game.claimsHash claims)
    (hlength : outputs.length ≠ claims.length) :
    ∃ fault, i.detect.Fails env cache s fault c' t' ∧
      (env.chain i.game (.claims i.head) = .ok claims →
        fault = Cause.claimCount outputs.length claims.length) := by
  have hclaim : (read i.game .rootClaim).Gives env cache s (root i.range.last) cache s :=
    gives_read_iff.mpr ⟨hpresents.rootClaim, rfl, rfl⟩
  have hcommitted : (read i.game .claimsHash).Gives env c t (Game.claimsHash claims) c t :=
    gives_read_iff.mpr ⟨hpresents.claimsHash, rfl, rfl⟩
  -- Both faults come after the same steps.
  have reaches {fault : Fault} (h : Work.Fails env (do
      let claimed ← within .fetchingClaims (read i.game (.claims i.head))
      let index ← ofExcept (Game.locateDivergence (outputs.map Rollup.Output.root) claimed)
      have inside : index.val < outputs.length := by have := index.isLt; simpa using this
      return some (i.range.indexOf outputs[index.val].number)) c' t' fault c' t') :
      i.detect.Fails env cache s fault c' t' := by
    refine hclaim.fails_bind (hlast.fails_bind ?_)
    rw [if_neg (not_not_intro hroot.symm)]
    refine hcommitted.fails_bind (hload.fails_bind ?_)
    rw [if_neg hne]
    exact h
  cases hclaimed : env.chain i.game (.claims i.head) with
  | error fault =>
    have hread : (within .fetchingClaims (read i.game (.claims i.head))).Fails env c' t'
        (fault.within .fetchingClaims) c' t' := (fails_read hclaimed).within
    exact ⟨fault.within .fetchingClaims, reaches hread.bind, nofun⟩
  | ok list =>
    obtain rfl := hpresents.claims hclaimed
    have hread : (within .fetchingClaims (read i.game (.claims i.head))).Gives env c' t' list c' t' :=
      gives_within_iff.mpr (gives_read_iff.mpr ⟨hclaimed, rfl, rfl⟩)
    have hrefused : Game.locateDivergence (outputs.map Rollup.Output.root) list =
        .error (Cause.claimCount outputs.length list.length) := by
      rw [Game.locateDivergence_of_length_ne (by rwa [List.length_map]), List.length_map]
    refine ⟨Cause.claimCount outputs.length list.length, reaches ?_, fun _ => rfl⟩
    refine hread.fails_bind ?_
    rw [hrefused]
    exact fails_ofExcept.bind

/-- A load that leaves a position out is no verdict: the detection fails, for the count of the claims
if they can be read. And it does no harm: whatever the cache is used in after that, a detection
that nothing hinders says of the claims what is so, as it does from any cache that no gap came
before. -/
theorem gap_is_no_verdict {c c' : OutputCache} {t t' : σ} {last : Rollup.Output}
    {outputs : List Rollup.Output} (hlen : claims.length = i.range.positionCount)
    (hcol : Distinct root i.range claims) (hrounds : 0 < i.rounds)
    (hcache : FromFresh (γ := γ) (Vouches (OfChain root)) cache)
    (hpresents : Presents env i root claims)
    (hvouches : ∀ q s, Vouches (OfChain root) q (env.answer q s).1)
    (hlast : (loadOne i.range.last).Gives env cache s last c t)
    (hload : (loadRange i.rounds i.range).Gives env c t outputs c' t')
    (hgap : ∃ block ∈ i.range.positions, ∀ o ∈ outputs, o.number ≠ block) :
    (∃ fault, i.detect.Fails env cache s fault c' t' ∧
      (env.chain i.game (.claims i.head) = .ok claims →
        fault = Cause.claimCount outputs.length i.range.positionCount)) ∧
    (∀ answer c₀ t₀, ¬ i.detect.Gives env cache s answer c₀ t₀) ∧
    ∀ {later smooth : OutputCache} {env₁ env₂ : Surroundings γ σ} {s₁ s₂ : σ},
      Becomes (γ := γ) (Vouches (OfChain root)) c' later →
      FromFresh (γ := γ) (Fills (OfChain root)) smooth →
      Unhindered env₁ i root claims later s₁ → Unhindered env₂ i root claims smooth s₂ →
      ∃ answer, Answer root i.range claims answer ∧
        (∃ c₁ t₁, i.detect.Gives env₁ later s₁ answer c₁ t₁) ∧
        ∃ c₂ t₂, i.detect.Gives env₂ smooth s₂ answer c₂ t₂ := by
  have hholds := hcache.holds number_of_ofChain
  obtain ⟨hc, hroot⟩ :=
    (upholds_loadOne_vouched number_of_ofChain i.range.last hholds).of_gives hvouches hlast
  obtain ⟨hc', hsub, hgood⟩ :=
    (upholds_loadRange_vouched number_of_ofChain i.rounds i.range hc).of_gives hvouches hload
  have hshort := length_lt_of_gap hsub hgap
  have hne := hcol.hash_ne hlen hsub hgood hshort
  obtain ⟨fault, hfails, hcount⟩ :=
    fails_of_length_ne hpresents hlast hroot.2 hload hne (by omega)
  refine ⟨⟨fault, hfails, ?_⟩, fun _ _ _ => hfails.not_gives, ?_⟩
  · rw [← hlen]
    exact hcount
  · intro later smooth env₁ env₂ s₁ s₂ hlater hsmooth hthen hnever
    have hlater := hlater.holds number_of_ofChain hc'
    obtain ⟨answer, c₁, t₁, hg₁⟩ := hthen.exists_gives hlen hrounds hlater
    have ha₁ := hthen.answer_of_gives hlen hcol hlater hg₁
    have hsmooth := (hsmooth.imp fun _ _ h => h.1).holds number_of_ofChain
    obtain ⟨answer', c₂, t₂, hg₂⟩ := hnever.exists_gives hlen hrounds hsmooth
    have ha₂ := hnever.answer_of_gives hlen hcol hsmooth hg₂
    obtain rfl := ha₁.unique ha₂
    exact ⟨answer, ha₁, ⟨c₁, t₁, hg₁⟩, c₂, t₂, hg₂⟩

end

namespace Sample

/-! ## A node that leaves a block out -/

/-- The root claim is right; of a batch the node answers with an output that nobody asked for. -/
def gapped : Surroundings Unit Unit where
  chain := chain (root 1) (Game.claimsHash claims)
  clock := 5
  node
    | .fetch (.outputs _), s => (some (.ok [output 5]), s)
    | q, s => node q s

/-- The same game with a node that answers in full. -/
def whole : Surroundings Unit Unit := surroundings (root 1) (Game.claimsHash claims) 5

theorem positions_eq : range.positions = [0, 1] := by
  rw [range.positions_eq_map]
  decide

set_option maxRecDepth 100000 in
theorem head_claimsHash_part : (Game.claimsHash []).bytes.head? = some 197 ∧
    (Game.claimsHash [.ofNat 1]).bytes.head? = some 177 := by
  decide +kernel

theorem distinct : Distinct root range claims := by
  intro blocks hsub
  rw [positions_eq] at hsub
  simp only [List.sublist_cons_iff, List.sublist_nil] at hsub
  apply Game.noCollision_of_head_ne
  rw [head_claimsHash.2]
  rcases hsub with (rfl | ⟨_, rfl, rfl⟩) | ⟨_, rfl, rfl | ⟨_, rfl, rfl⟩⟩
  · rw [List.map_nil, head_claimsHash_part.1]
    decide
  · rw [show [1].map root = [.ofNat 1] from rfl, head_claimsHash_part.2]
    decide
  · rw [show [0].map root = [.ofNat 0] from rfl, head_claimsHash_single]
    decide
  · rw [show [0, 1].map root = [.ofNat 0, .ofNat 1] from rfl, head_claimsHash.1]
    decide

theorem presents_gapped : Presents gapped inspector root claims where
  rootClaim := rfl
  claimsHash := rfl
  claims h := by cases h; rfl

theorem vouches_gapped (q : Watch.Ask Unit) (s : Unit) :
    Vouches (OfChain root) q (gapped.answer q s).1 := by
  cases q with
  | fetch what =>
    cases what with
    | outputs blocks =>
      intro block hb o ho
      obtain rfl := List.mem_singleton.mp (List.mem_of_find?_eq_some ho)
      have hnumber : (output 5).number = block := by simpa using List.find?_some ho
      exact ⟨hnumber, by rw [← hnumber]; rfl⟩
    | output block => exact ⟨rfl, rfl⟩
    | _ => trivial
  | _ => trivial

/-- The last output is cached by then. -/
def halfFull : OutputCache := ⟨1, 64, [(1, output 1)]⟩

theorem loads_gapped :
    (loadRange 1 range).Gives gapped halfFull () [output 1] halfFull () := by
  unfold loadRange
  rw [positions_eq]
  have harranged : (arrange range [output 1] : Work Unit _).Gives gapped halfFull () [output 1]
      halfFull () := by
    unfold arrange ascending
    rw [List.mergeSort_singleton]
    rfl
  exact harranged

theorem unhindered (cache : OutputCache) : Unhindered whole inspector root claims cache () where
  presents := ⟨rfl, rfl, fun h => by cases h; rfl⟩
  fills q s := fills_of_serves (truthful _ _ _ q s)
  succeeds := Program.exchanges_rely (succeeds _ _ _)

theorem firstFault_claims : FirstFault root range claims 0 :=
  ⟨⟨.ofNat 7, rfl, by decide⟩, fun _ hj => absurd hj (Nat.not_lt_zero _)⟩

end Sample

open Sample in
/-- The output of block 0 is left out, and the detection fails; the next one finds the first claim to
be faulty, as one does from a fresh cache. -/
theorem gap_is_no_verdict_sample :
    inspector.detect.Fails gapped Sample.cache () (Cause.claimCount 1 2) halfFull () ∧
      (∃ c t, inspector.detect.Gives whole halfFull () (some 0) c t) ∧
      ∃ c t, inspector.detect.Gives whole Sample.cache () (some 0) c t := by
  have fresh (rely : (Watch Unit).Rely) : FromFresh rely Sample.cache := ⟨64, 1, _, rfl, .same⟩
  obtain ⟨⟨fault, hfails, hcount⟩, -, hafter⟩ := gap_is_no_verdict (i := inspector) length_claims
    distinct Nat.one_pos (fresh _) presents_gapped vouches_gapped
    (show (loadOne (γ := Unit) 1).Gives gapped Sample.cache () (output 1) halfFull () from rfl)
    loads_gapped ⟨0, by rw [show inspector.range = range from rfl, positions_eq]; decide, by decide⟩
  obtain rfl := hcount rfl
  obtain ⟨answer, hanswer, hthen, hnever⟩ :=
    hafter .same (fresh _) (unhindered halfFull) (unhindered Sample.cache)
  have hzero : Answer root range claims (some 0) := firstFault_claims
  obtain rfl := hanswer.unique hzero
  exact ⟨hfails, hthen, hnever⟩

end Watchtower
