import Watchtower.Proofs.Detection

/-!
# What a detection comes to

The node has outputs of one chain, and `view` is what a game's contract shows of what never changes
there.

* `expected root view range head` : the outcome of a detection, a function of these alone;
* `Tells game view may` : the rely of a contract that shows `view`, where a read may also fail with a
  fault in `may`;
* `upholds_detectFault` : whatever is cached, the detection comes to this outcome, unless it fails
  as a question of its own may have failed;
* `Responds headers` : the rely of nodes that answer every request. Then a detection ends
  (`ends_detectFault`), with this outcome (`upholds_detection`).
-/

namespace Watchtower

open Work OutputCache

variable {γ α β : Type} {root : UInt64 → Hash} {game : γ} {range : Game.Range} {head : L1.Head}
  {view : (what : Read) → Except Fault (what.Value γ)} {may : Fault → Prop} {rounds : Nat}
  {rely : (Watch γ).Rely} {cache : OutputCache}

/-- The endpoint first, then the hash over all claims, and only if that differs the claims. -/
def expected (root : UInt64 → Hash) (view : (what : Read) → Except Fault (what.Value γ))
    (range : Game.Range) (head : L1.Head) : Except Fault (Option UInt64) := do
  let rootClaim ← view .rootClaim
  if rootClaim ≠ root range.last then return some range.endIndex
  let committed ← view .claimsHash
  if Game.claimsHash (range.positions.map root) = committed then return none
  let claimed ← inContext .fetchingClaims (view (.claims head))
  let index ← Game.locateDivergence (range.positions.map root) claimed
  return some (.ofNat index)

/-- If the root claim is right, the hash decides. -/
theorem expected_of_last {committed : Hash} (hlast : view .rootClaim = .ok (root range.last))
    (hcommitted : view .claimsHash = .ok committed) :
    expected root view range head =
      if Game.claimsHash (range.positions.map root) = committed then .ok none else do
        let claimed ← inContext .fetchingClaims (view (.claims head))
        let index ← Game.locateDivergence (range.positions.map root) claimed
        return some (.ofNat index) := by
  unfold expected
  rw [hlast, hcommitted]
  exact if_neg (not_not_intro rfl)

/-- What a contract answers the same for as long as the game exists. -/
def Read.Lasting : Read → Prop
  | .rootClaim | .claimsHash | .claims _ => True
  | _ => False

def Tells (game : γ) (view : (what : Read) → Except Fault (what.Value γ)) (may : Fault → Prop) :
    (Watch γ).Rely
  | .read g what, reply => g = game → what.Lasting →
    reply = view what ∨ ∃ fault, may fault ∧ reply = .error fault
  | _, _ => True

/-- The work fails with faults in `may` only. -/
def Work.FailsAs (rely : (Watch γ).Rely) (may : Fault → Prop) (x : Work γ α) : Prop :=
  ∀ cache, x.Upholds rely cache fun r _ => ∀ fault, r = .error fault → may fault

/-- Either what the work is to come to, or a fault in `may`. -/
def ComesTo (may : Fault → Prop) (target : Except Fault α) (r : Except Fault α) : Prop :=
  r = target ∨ ∃ fault, may fault ∧ r = .error fault

theorem Work.ofExcept_bind_pure (r : Except Fault α) (g : α → β) :
    (Work.ofExcept r >>= fun a => pure (g a) : Work γ β) =
      Work.ofExcept (r >>= fun a => pure (g a)) := by
  cases r <;> rfl

theorem indexOf_eq_ofNat {outputs : List Rollup.Output}
    (h : outputs.map Rollup.Output.number = range.positions) (k : Fin outputs.length) :
    range.indexOf (outputs.get k).number = .ofNat k := by
  rw [← toNat_indexOf_number h k, UInt64.ofNat_toNat]

section
variable (htells : ∀ q reply, rely q reply → Tells game view may q reply)
include htells

theorem upholds_told {what : Read} {post : Except Fault (what.Value γ) → OutputCache → Prop}
    (hlasting : what.Lasting) (h : post (view what) cache)
    (hfails : ∀ fault, may fault → post (.error fault) cache) :
    (read game what).Upholds rely cache post := by
  refine upholds_read fun reply hr => ?_
  rcases htells _ _ hr rfl hlasting with rfl | ⟨fault, hf, rfl⟩
  · exact h
  · exact hfails fault hf

variable (hserves : ∀ q reply, rely q reply → Serves (OfChain root) q reply)
  (hone : (loadOne (γ := γ) range.last).FailsAs rely may)
  (hrange : (loadRange (γ := γ) rounds range).FailsAs rely may)
  (hwithin : ∀ fault, may fault → may (fault.within .fetchingClaims))
include hserves hone hrange hwithin

theorem upholds_detectFault (hc : cache.Holds (OfChain root)) :
    (detectFault rounds game range head).Upholds rely cache fun r c =>
      c.Holds (OfChain root) ∧ ComesTo may (expected root view range head) r := by
  unfold expected
  refine Upholds.bind (upholds_told htells trivial ?_ fun fault hf => ⟨hc, .inr ⟨fault, hf, rfl⟩⟩)
  cases view .rootClaim with
  | error fault => exact ⟨hc, .inl rfl⟩
  | ok rootClaim =>
  have hlast := (upholds_loadOne (γ := γ) number_of_ofChain range.last hc).restrict hserves
  refine Upholds.bind ((hlast.and (hone cache)).imp ?_)
  rintro (fault | last) c ⟨⟨hc, hlast⟩, hfails⟩
  · exact ⟨hc, .inr ⟨fault, hfails fault rfl, rfl⟩⟩
  rw [← show last.root = root range.last from hlast.2]
  change Upholds rely (if rootClaim ≠ last.root then _ else _) c fun r c => c.Holds (OfChain root) ∧
    ComesTo may (if rootClaim ≠ last.root then _ else _) r
  split
  · exact upholds_pure ⟨hc, .inl rfl⟩
  refine Upholds.bind (upholds_told htells trivial ?_ fun fault hf => ⟨hc, .inr ⟨fault, hf, rfl⟩⟩)
  cases view .claimsHash with
  | error fault => exact ⟨hc, .inl rfl⟩
  | ok committed =>
  have hload := (upholds_loadRange (γ := γ) number_of_ofChain rounds range hc).restrict hserves
  refine Upholds.bind ((hload.and (hrange c)).imp ?_)
  rintro (fault | outputs) c ⟨⟨hc, hload⟩, hfails⟩
  · exact ⟨hc, .inr ⟨fault, hfails fault rfl, rfl⟩⟩
  have hroots : outputs.map Rollup.Output.root = range.positions.map root := roots_of_ofChain hload
  have hindex (k : Fin (outputs.map Rollup.Output.root).length) (inside : k < outputs.length) :
      range.indexOf outputs[k.val].number = .ofNat k := indexOf_eq_ofNat hload.1 ⟨k, inside⟩
  simp only [hindex, ofExcept_bind_pure]
  rw [← hroots]
  generalize outputs.map Rollup.Output.root = roots
  change Upholds rely _ c fun r c => c.Holds (OfChain root) ∧
    ComesTo may (if Game.claimsHash roots = committed then _ else _) r
  split
  · exact upholds_pure ⟨hc, .inl rfl⟩
  refine Upholds.bind (Upholds.within (upholds_told htells trivial ?_ fun fault hf =>
    ⟨hc, .inr ⟨_, hwithin fault hf, rfl⟩⟩))
  cases view (.claims head) with
  | error fault => exact ⟨hc, .inl rfl⟩
  | ok claimed => exact upholds_ofExcept ⟨hc, .inl rfl⟩

end

/-! ## Detections that end -/

/-- Every request comes back with a value, that for a header with the one that its block has, and
there is no signal to stop. A read may fail. -/
def Responds (headers : Hash → L1.Header) : (Watch γ).Rely
  | .fetch (.header hash), reply => reply = some (.ok (headers hash))
  | .fetch _, reply => ∃ value, reply = some (.ok value)
  | .stopping, stopping => stopping = false
  | _, _ => True

/-- While outputs are loaded nothing is read, so nothing fails. -/
theorem succeeds_of_responds {headers : Hash → L1.Header} {q : Watch.Ask γ} {reply : Watch.Reply γ q}
    (hq : q.OfLoading) (h : Responds headers q reply) : Succeeds q reply := by
  cases q with
  | fetch what => cases what <;> first | exact h | exact hq.elim
  | read game what => exact hq.elim
  | stopping => exact h
  | _ => trivial

namespace Work

variable {x : Work γ α}

/-- The work ends, with a value or a fault. -/
def Ends (rely : (Watch γ).Rely) (x : Work γ α) : Prop :=
  ∀ cache, (x cache).Meets rely fun (outcome : Option (Except Fault α × OutputCache)) =>
    outcome ≠ none

theorem Ends.bind {f : α → Work γ β} (h : x.Ends rely) (hf : ∀ a, (f a).Ends rely) :
    (x >>= f).Ends rely := by
  intro cache
  rw [bind_apply, Program.meets_bind_iff]
  refine Program.Meets.imp (h cache) ?_
  rintro (_ | ⟨fault | a, c⟩) hne
  · exact absurd rfl hne
  · exact Option.some_ne_none _
  · exact hf a c

theorem ends_ofExcept (r : Except Fault α) : (ofExcept r : Work γ α).Ends rely := by
  cases r <;> exact fun _ => Option.some_ne_none _

theorem ends_ask (q : Watch.Ask γ) : (ask q).Ends rely :=
  fun _ _ _ => Option.some_ne_none _

theorem Ends.within {context : Context} (h : x.Ends rely) : (Work.within context x).Ends rely := by
  intro cache
  unfold Work.within
  rw [Program.meets_bind_iff]
  refine Program.Meets.imp (h cache) ?_
  rintro (_ | ⟨r, c⟩) hne
  · exact absurd rfl hne
  · exact Option.some_ne_none _

theorem straight_ends : Straight (γ := γ) fun _ x => x.Ends rely where
  pure a := ends_ofExcept (.ok a)
  ofExcept := ends_ofExcept
  bind := Ends.bind
  within _ := Ends.within
  read game what _ := (ends_ask (.read game what)).bind ends_ofExcept
  fetch what := by
    refine (ends_ask (.fetch what)).bind ?_
    rintro (_ | result)
    · exact ends_ofExcept (.error Cause.cancelled)
    · exact ends_ofExcept result
  now := ends_ask .now

theorem ends_of_delivers (h : ∀ cache, x.Delivers rely cache fun _ _ => True) : x.Ends rely := by
  intro cache
  refine Program.Meets.imp (h cache) ?_
  rintro (_ | outcome) ho
  · exact ho.elim
  · exact Option.some_ne_none _

theorem failsAs_of_delivers (h : ∀ cache, x.Delivers rely cache fun _ _ => True) :
    x.FailsAs rely may := by
  intro cache
  refine Program.Meets.imp (h cache) ?_
  rintro (_ | ⟨fault | a, c⟩) ho
  · trivial
  · exact ho.elim
  · exact fun fault hf => nomatch hf

/-- Work that ends is run to a result, and what it upholds is so of it. -/
theorem Upholds.runs {σ : Type} {answer : (q : Watch.Ask γ) → σ → Watch.Reply γ q × σ} {s : σ}
    {post : Except Fault α → OutputCache → Prop} (h : x.Upholds rely cache post)
    (hends : x.Ends rely) (hr : ∀ e ∈ (x cache).exchanges answer s, rely e.ask e.reply) :
    ∃ r cache' s', (x cache).run answer s = some ((r, cache'), s') ∧ post r cache' := by
  have hpost := Program.Meets.of_exchanges (Program.Meets.and h (hends cache)) hr
  cases hrun : (x cache).run answer s with
  | none =>
    rw [hrun] at hpost
    exact absurd rfl hpost.2
  | some outcome =>
    obtain ⟨⟨r, c⟩, t⟩ := outcome
    rw [hrun] at hpost
    exact ⟨r, c, t, rfl, hpost.1⟩

end Work

section
variable {headers : Hash → L1.Header} (hresponds : ∀ q reply, rely q reply → Responds headers q reply)
include hresponds

theorem delivers_loadOne_of_responds (block : UInt64) :
    (loadOne block).Delivers rely cache fun _ _ => True :=
  (delivers_loadOne block).restrict_asks (asks_loadOne block) fun q reply hq hr =>
    succeeds_of_responds hq (hresponds q reply hr)

theorem delivers_loadRange_of_responds (hrounds : 0 < rounds) (range : Game.Range) :
    (loadRange rounds range).Delivers rely cache fun _ _ => True :=
  (delivers_loadRange hrounds range).restrict_asks (asks_loadRange rounds range) fun q reply hq hr =>
    succeeds_of_responds hq (hresponds q reply hr)

theorem ends_detectFault (hrounds : 0 < rounds) : (detectFault rounds game range head).Ends rely :=
  straight_ends.detectFault (ends_of_delivers fun _ => delivers_loadOne_of_responds hresponds _)
    (ends_of_delivers fun _ => delivers_loadRange_of_responds hresponds hrounds _) game head

/-- With nodes that answer, a detection comes to what it is expected to, value or fault. -/
theorem upholds_detection (hrounds : 0 < rounds)
    (htells : ∀ q reply, rely q reply → Tells game view (fun _ => False) q reply)
    (hserves : ∀ q reply, rely q reply → Serves (OfChain root) q reply)
    (hc : cache.Holds (OfChain root)) :
    (detectFault rounds game range head).Upholds rely cache fun r c =>
      c.Holds (OfChain root) ∧ r = expected root view range head := by
  have hone : (loadOne (γ := γ) range.last).FailsAs rely fun _ => False :=
    failsAs_of_delivers fun _ => delivers_loadOne_of_responds hresponds _
  have hrange : (loadRange (γ := γ) rounds range).FailsAs rely fun _ => False :=
    failsAs_of_delivers fun _ => delivers_loadRange_of_responds hresponds hrounds _
  refine (upholds_detectFault htells hserves hone hrange (fun _ h => h) hc).imp ?_
  rintro r c ⟨hc, hr | ⟨fault, hf, -⟩⟩
  · exact ⟨hc, hr⟩
  · exact hf.elim

end

end Watchtower
