import Watchtower.Proofs.Rely
import Watchtower.Work

/-!
# What work on a game achieves

* `x.Upholds rely cache post` : every run of `x` from `cache` within the rely that ends does so in
  `post`, which speaks of the result, value or fault, and of the cache then;
* `x.Delivers rely cache post` : every run within the rely ends, and with a value in `post`;
* `x.Keeps rely inv` : no run within the rely, whatever its result, breaks an invariant of the
  cache;
* `x.Asks may` : `x` asks nothing but questions in `may`;
* `IfValue p result` : a postcondition that says nothing about faults.

Each way to build work has a rule for each of them. A rule for a read or a request speaks of the
answers that the rely allows.
-/

namespace Watchtower.Work

open Program

variable {γ α β : Type} {rely rely' : (Watch γ).Rely} {cache : OutputCache} {x : Work γ α}
  {f : α → Work γ β} {context : Context}

def Upholds (rely : (Watch γ).Rely) (x : Work γ α) (cache : OutputCache)
    (post : Except Fault α → OutputCache → Prop) : Prop :=
  (x cache).Meets rely fun outcome => match outcome with
    | some (result, cache) => post result cache
    | none => True

def Delivers (rely : (Watch γ).Rely) (x : Work γ α) (cache : OutputCache)
    (post : α → OutputCache → Prop) : Prop :=
  (x cache).Meets rely fun (outcome : Option (Except Fault α × OutputCache)) => match outcome with
    | some (.ok a, cache) => post a cache
    | _ => False

def Keeps (rely : (Watch γ).Rely) (inv : OutputCache → Prop) (x : Work γ α) : Prop :=
  ∀ cache, inv cache → x.Upholds rely cache fun _ cache => inv cache

def IfValue (p : α → Prop) : Except Fault α → Prop
  | .ok a => p a
  | .error _ => True

def Asks (may : Watch.Ask γ → Prop) (x : Work γ α) : Prop := ∀ cache, (x cache).Asks may

/-! ## Partial correctness -/

section Upholds
variable {post post' : Except Fault α → OutputCache → Prop}

theorem Upholds.imp (h : x.Upholds rely cache post) (hp : ∀ r c, post r c → post' r c) :
    x.Upholds rely cache post' := by
  refine Meets.imp h ?_
  rintro (_ | ⟨r, c⟩) hc
  · trivial
  · exact hp r c hc

theorem Upholds.restrict (h : x.Upholds rely cache post)
    (hr : ∀ q reply, rely' q reply → rely q reply) : x.Upholds rely' cache post :=
  Meets.restrict h hr

theorem Upholds.and (h : x.Upholds rely cache post) (h' : x.Upholds rely cache post') :
    x.Upholds rely cache fun r c => post r c ∧ post' r c := by
  refine Meets.imp (Meets.and h h') ?_
  rintro (_ | ⟨r, c⟩) hc
  · trivial
  · exact hc

theorem upholds_pure {a : α} (h : post (.ok a) cache) : (pure a : Work γ α).Upholds rely cache post :=
  h

theorem upholds_ofExcept {r : Except Fault α} (h : post r cache) :
    (ofExcept r : Work γ α).Upholds rely cache post := by
  cases r <;> exact h

theorem Upholds.bind {post : Except Fault β → OutputCache → Prop}
    (h : x.Upholds rely cache fun
      | .ok a, c => (f a).Upholds rely c post
      | .error fault, c => post (.error fault) c) :
    (x >>= f).Upholds rely cache post := by
  unfold Upholds
  rw [bind_apply, meets_bind_iff]
  refine Meets.imp h ?_
  rintro (_ | ⟨_ | a, c⟩) hc
  · trivial
  · exact hc
  · exact hc

theorem upholds_ask {q : Watch.Ask γ} {post : Except Fault (Watch.Reply γ q) → OutputCache → Prop}
    (h : ∀ reply, rely q reply → post (.ok reply) cache) : (ask q).Upholds rely cache post := h

theorem upholds_read {game : γ} {what : Read}
    {post : Except Fault (what.Value γ) → OutputCache → Prop}
    (h : ∀ reply, rely (.read game what) reply → post reply cache) :
    (read game what).Upholds rely cache post :=
  Upholds.bind (upholds_ask fun reply hr => upholds_ofExcept (h reply hr))

theorem upholds_fetch {what : Fetch} {post : Except Fault what.Value → OutputCache → Prop}
    (h : ∀ reply, rely (.fetch what) reply → post (reply.getD (.error Cause.cancelled)) cache) :
    (fetch what : Work γ what.Value).Upholds rely cache post := by
  refine Upholds.bind (upholds_ask fun reply hr => ?_)
  specialize h reply hr
  cases reply with
  | none => exact h
  | some result => exact upholds_ofExcept h

/-- Of what is only said of values, a read that fails needs no proof. -/
theorem upholds_read_bind {game : γ} {what : Read} {f : what.Value γ → Work γ β} {p : β → Prop}
    (h : ∀ v, rely (.read game what) (.ok v) →
      (f v).Upholds rely cache fun r _ => IfValue p r) :
    (read game what >>= f).Upholds rely cache fun r _ => IfValue p r := by
  refine Upholds.bind (upholds_read fun reply hr => ?_)
  cases reply with
  | error fault => trivial
  | ok v => exact h v hr

theorem upholds_ofExcept_bind {r : Except Fault α} {p : β → Prop}
    (h : ∀ a, r = .ok a → (f a).Upholds rely cache fun r _ => IfValue p r) :
    (ofExcept r >>= f).Upholds rely cache fun r _ => IfValue p r := by
  refine Upholds.bind (upholds_ofExcept ?_)
  cases r with
  | error fault => trivial
  | ok a => exact h a rfl

theorem Upholds.within (h : x.Upholds rely cache fun r c => post (inContext context r) c) :
    (Work.within context x).Upholds rely cache post := by
  unfold Upholds Work.within
  rw [meets_bind_iff]
  refine Meets.imp h ?_
  rintro (_ | ⟨r, c⟩) hc
  · trivial
  · exact hc

end Upholds

/-! ## Total correctness -/

section Delivers
variable {post post' : α → OutputCache → Prop}

theorem Delivers.imp (h : x.Delivers rely cache post) (hp : ∀ a c, post a c → post' a c) :
    x.Delivers rely cache post' := by
  refine Meets.imp h ?_
  rintro (_ | ⟨_ | a, c⟩) hc
  · exact hc
  · exact hc
  · exact hp a c hc

theorem Delivers.restrict (h : x.Delivers rely cache post)
    (hr : ∀ q reply, rely' q reply → rely q reply) : x.Delivers rely' cache post :=
  Meets.restrict h hr

/-- Work that ends with a value ends as it ends at all. -/
theorem Delivers.and_upholds {post' : Except Fault α → OutputCache → Prop}
    (h : x.Delivers rely cache post) (h' : x.Upholds rely cache post') :
    x.Delivers rely cache fun a c => post a c ∧ post' (.ok a) c := by
  refine Meets.imp (Meets.and h h') ?_
  rintro (_ | ⟨_ | a, c⟩) hc
  · exact hc.1
  · exact hc.1
  · exact hc

theorem delivers_pure {a : α} (h : post a cache) : (pure a : Work γ α).Delivers rely cache post := h

theorem Delivers.bind {post : β → OutputCache → Prop}
    (h : x.Delivers rely cache fun a c => (f a).Delivers rely c post) :
    (x >>= f).Delivers rely cache post := by
  unfold Delivers
  rw [bind_apply, meets_bind_iff]
  refine Meets.imp h ?_
  rintro (_ | ⟨_ | a, c⟩) hc
  · exact hc
  · exact hc.elim
  · exact hc

theorem delivers_ask {q : Watch.Ask γ} {post : Watch.Reply γ q → OutputCache → Prop}
    (h : ∀ reply, rely q reply → post reply cache) : (ask q).Delivers rely cache post := h

theorem delivers_read {game : γ} {what : Read} {post : what.Value γ → OutputCache → Prop}
    (h : ∀ reply, rely (.read game what) reply → ∃ v, reply = .ok v ∧ post v cache) :
    (read game what).Delivers rely cache post := by
  refine Delivers.bind (delivers_ask fun reply hr => ?_)
  obtain ⟨v, rfl, hv⟩ := h reply hr
  exact hv

theorem delivers_fetch {what : Fetch} {post : what.Value → OutputCache → Prop}
    (h : ∀ reply, rely (.fetch what) reply → ∃ v, reply = some (.ok v) ∧ post v cache) :
    (fetch what : Work γ what.Value).Delivers rely cache post := by
  refine Delivers.bind (delivers_ask fun reply hr => ?_)
  obtain ⟨v, rfl, hv⟩ := h reply hr
  exact hv

theorem Delivers.within (h : x.Delivers rely cache post) :
    (Work.within context x).Delivers rely cache post := by
  unfold Delivers Work.within
  rw [meets_bind_iff]
  refine Meets.imp h ?_
  rintro (_ | ⟨_ | a, c⟩) hc
  · exact hc
  · exact hc
  · exact hc

end Delivers

/-! ## Invariants of the cache -/

section Keeps
variable {inv : OutputCache → Prop}

theorem keeps_pure (a : α) : (pure a : Work γ α).Keeps rely inv := fun _ hi => upholds_pure hi

theorem keeps_ofExcept (r : Except Fault α) : (ofExcept r : Work γ α).Keeps rely inv :=
  fun _ hi => upholds_ofExcept hi

theorem keeps_ask (q : Watch.Ask γ) : (ask q).Keeps rely inv :=
  fun _ hi => upholds_ask fun _ _ => hi

theorem keeps_read (game : γ) (what : Read) : (read game what).Keeps rely inv :=
  fun _ hi => upholds_read fun _ _ => hi

theorem keeps_fetch (what : Fetch) : (fetch what : Work γ what.Value).Keeps rely inv :=
  fun _ hi => upholds_fetch fun _ _ => hi

theorem keeps_stuck : (stuck : Work γ α).Keeps rely inv := fun _ _ => trivial

theorem Keeps.bind (h : x.Keeps rely inv) (hf : ∀ a, (f a).Keeps rely inv) :
    (x >>= f).Keeps rely inv := by
  intro cache hi
  refine Upholds.bind ((h cache hi).imp ?_)
  rintro (_ | a) c hc
  · exact hc
  · exact hf a c hc

theorem Keeps.within (h : x.Keeps rely inv) : (Work.within context x).Keeps rely inv :=
  fun cache hi => Upholds.within (h cache hi)

end Keeps

/-! ## Which questions are asked -/

section Asks
variable {may : Watch.Ask γ → Prop}

theorem Asks.imp {may' : Watch.Ask γ → Prop} (h : x.Asks may) (hm : ∀ q, may q → may' q) :
    x.Asks may' := fun cache => Program.Asks.imp (h cache) hm

/-- Work that asks but a few kinds of question delivers what it does whatever the answers to others
are. -/
theorem Delivers.restrict_asks {post : α → OutputCache → Prop} (h : x.Delivers rely cache post)
    (ha : x.Asks may) (hr : ∀ q reply, may q → rely' q reply → rely q reply) :
    x.Delivers rely' cache post := Meets.restrict_asks h (ha cache) hr

theorem asks_pure (a : α) : (pure a : Work γ α).Asks may := fun _ => trivial

theorem asks_fail (fault : Fault) : (fail fault : Work γ α).Asks may := fun _ => trivial

theorem asks_ofExcept (r : Except Fault α) : (ofExcept r : Work γ α).Asks may := by
  cases r <;> exact fun _ => trivial

theorem asks_stuck : (stuck : Work γ α).Asks may := fun _ => trivial

theorem asks_ask {q : Watch.Ask γ} (h : may q) : (ask q).Asks may := fun _ => ⟨h, fun _ => trivial⟩

theorem Asks.bind (h : x.Asks may) (hf : ∀ a, (f a).Asks may) : (x >>= f).Asks may := by
  intro cache
  rw [bind_apply]
  refine Program.Asks.bind (h cache) ?_
  rintro ⟨_ | a, c⟩
  · trivial
  · exact hf a c

theorem asks_read {game : γ} {what : Read} (h : may (.read game what)) :
    (read game what).Asks may :=
  (asks_ask h).bind asks_ofExcept

theorem asks_fetch {what : Fetch} (h : may (.fetch what)) :
    (fetch what : Work γ what.Value).Asks may := by
  refine (asks_ask h).bind ?_
  rintro (_ | result)
  · exact asks_fail _
  · exact asks_ofExcept result

theorem Asks.within (h : x.Asks may) : (Work.within context x).Asks may :=
  fun cache => Program.Asks.bind (h cache) fun _ => trivial

end Asks

end Watchtower.Work
