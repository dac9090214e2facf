import Watchtower.Program

/-!
# Programs in surroundings that keep to a rely

A rely says which answers a question may get. `p.Meets rely post` : whatever the surroundings answer
within `rely`, `p` comes to an outcome in `post`, a value or, if it is stuck, none. So a
postcondition that excludes `none` is one of total correctness.

* `meets_bind_iff` : a sequence meets what its parts meet;
* `Meets.of_yields` : what is met holds of every trace within the rely;
* `Meets.of_exchanges` : and of every run against a state that is answered within the rely;
* `yields_handle` : a run of a program whose questions are answered by programs is one of that
  program, with a part for each answer;
* `p.Asks may` : `p` asks nothing but questions in `may`, whatever it is answered.
-/

namespace Watchtower

/-- Which answers a question may get. -/
abbrev Interface.Rely (I : Interface) : Type := (q : I.Ask) → I.Reply q → Prop

namespace Program

variable {I : Interface} {α β σ : Type} {rely rely' : I.Rely} {post post' : Option α → Prop}

def Meets (rely : I.Rely) (post : Option α → Prop) : Program I α → Prop
  | done a => post (some a)
  | ask q next => ∀ reply, rely q reply → (next reply).Meets rely post
  | stuck => post none

theorem Meets.imp {p : Program I α} (h : p.Meets rely post) (hp : ∀ a, post a → post' a) :
    p.Meets rely post' := by
  induction p with
  | done a => exact hp _ h
  | ask q next ih => exact fun reply hr => ih reply (h reply hr)
  | stuck => exact hp _ h

theorem meets_of_forall (p : Program I α) (h : ∀ a, post a) : p.Meets rely post := by
  induction p with
  | done a => exact h _
  | ask q next ih => exact fun reply _ => ih reply
  | stuck => exact h _

/-- Surroundings that promise more are met all the more. -/
theorem Meets.restrict {p : Program I α} (h : p.Meets rely post)
    (hr : ∀ q reply, rely' q reply → rely q reply) : p.Meets rely' post := by
  induction p with
  | done a => exact h
  | ask q next ih => exact fun reply hq => ih reply (h reply (hr q reply hq))
  | stuck => exact h

theorem Meets.and {p : Program I α} (h : p.Meets rely post) (h' : p.Meets rely post') :
    p.Meets rely fun a => post a ∧ post' a := by
  induction p with
  | done a => exact ⟨h, h'⟩
  | ask q next ih => exact fun reply hr => ih reply (h reply hr) (h' reply hr)
  | stuck => exact ⟨h, h'⟩

theorem meets_bind_iff {p : Program I α} {f : α → Program I β} {post : Option β → Prop} :
    (p >>= f).Meets rely post ↔ p.Meets rely fun
      | some a => (f a).Meets rely post
      | none => post none := by
  induction p with
  | done a => exact Iff.rfl
  | ask q next ih => exact forall_congr' fun reply => imp_congr_right fun _ => ih reply
  | stuck => exact Iff.rfl

theorem Meets.of_yields {p : Program I α} {trace : List (Exchange I)} {a : α}
    (h : p.Meets rely post) (hy : p.Yields trace a) (hr : ∀ e ∈ trace, rely e.ask e.reply) :
    post (some a) := by
  induction hy with
  | done a => exact h
  | ask _ ih =>
    rw [List.forall_mem_cons] at hr
    exact ih (h _ hr.1) hr.2

theorem Meets.of_exchanges {p : Program I α} {answer : ∀ q : I.Ask, σ → I.Reply q × σ} {s : σ}
    (h : p.Meets rely post) (hr : ∀ e ∈ p.exchanges answer s, rely e.ask e.reply) :
    post ((p.run answer s).map Prod.fst) := by
  induction p generalizing s with
  | done a => exact h
  | ask q next ih =>
    rw [exchanges, List.forall_mem_cons] at hr
    exact ih _ (h _ hr.1) hr.2
  | stuck => exact h

theorem exchanges_rely {p : Program I α} {answer : ∀ q : I.Ask, σ → I.Reply q × σ} {s : σ}
    (ha : ∀ q s, rely q (answer q s).1) : ∀ e ∈ p.exchanges answer s, rely e.ask e.reply := by
  induction p generalizing s with
  | done a => intro e he; cases he
  | ask q next ih => exact List.forall_mem_cons.mpr ⟨ha q s, ih _⟩
  | stuck => intro e he; cases he

/-! ## Runs and exchanges of a sequence -/

variable {answer : ∀ q : I.Ask, σ → I.Reply q × σ}

theorem run_bind (p : Program I α) (f : α → Program I β) (s : σ) :
    (p >>= f).run answer s = (p.run answer s).bind fun (a, t) => (f a).run answer t := by
  induction p generalizing s with
  | done a => rfl
  | ask q next ih => exact ih _ _
  | stuck => rfl

theorem exchanges_bind (p : Program I α) (f : α → Program I β) (s : σ) :
    (p >>= f).exchanges answer s = p.exchanges answer s ++
      match p.run answer s with
      | some (a, t) => (f a).exchanges answer t
      | none => [] := by
  induction p generalizing s with
  | done a => rfl
  | ask q next ih => exact congrArg _ (ih _ _)
  | stuck => rfl

/-! ## Questions answered by programs -/

section
variable {J : Interface} {h : ∀ q : I.Ask, Program J (I.Reply q)}

theorem handle_bind (p : Program I α) (f : α → Program I β) :
    (p >>= f).handle h = p.handle h >>= fun a => (f a).handle h := by
  induction p with
  | done a => rfl
  | ask q next ih =>
    change h q >>= (fun reply => (next reply >>= f).handle h) =
      (h q >>= fun reply => (next reply).handle h) >>= fun a => (f a).handle h
    rw [bind_assoc]
    exact congrArg (h q >>= ·) (funext ih)
  | stuck => rfl

/-- A run of a program whose questions are answered by programs is one of that program, with a part
for each answer. -/
theorem yields_handle {p : Program I α} {trace : List (Exchange J)} {a : α}
    (hy : (p.handle h).Yields trace a) :
    ∃ outer, p.Yields outer a ∧
      ∀ e ∈ outer, ∃ part, part.Sublist trace ∧ (h e.ask).Yields part e.reply := by
  induction p generalizing trace with
  | done b =>
    obtain ⟨-, rfl⟩ := yields_done_iff.mp hy
    exact ⟨[], .done _, List.forall_mem_nil _⟩
  | ask q next ih =>
    obtain ⟨reply, first, second, rfl, hfirst, hsecond⟩ := yields_bind_iff.mp hy
    obtain ⟨outer, houter, hparts⟩ := ih reply hsecond
    refine ⟨⟨q, reply⟩ :: outer, .ask houter, List.forall_mem_cons.mpr ⟨?_, fun e he => ?_⟩⟩
    · exact ⟨first, List.sublist_append_left first second, hfirst⟩
    · obtain ⟨part, hpart, hyields⟩ := hparts e he
      exact ⟨part, hpart.trans (List.sublist_append_right first second), hyields⟩
  | stuck => exact absurd hy not_yields_stuck

end

/-! ## Which questions are asked -/

def Asks (may : I.Ask → Prop) : Program I α → Prop
  | done _ | stuck => True
  | ask q next => may q ∧ ∀ reply, (next reply).Asks may

theorem Asks.bind {may : I.Ask → Prop} {p : Program I α} {f : α → Program I β} (h : p.Asks may)
    (hf : ∀ a, (f a).Asks may) : (p >>= f).Asks may := by
  induction p with
  | done a => exact hf a
  | ask q next ih => exact ⟨h.1, fun reply => ih reply (h.2 reply)⟩
  | stuck => trivial

/-- Of a program whose questions are answered by programs, these ask. -/
theorem asks_handle {J : Interface} {may : J.Ask → Prop} {h : ∀ q : I.Ask, Program J (I.Reply q)}
    (hh : ∀ q, (h q).Asks may) (p : Program I α) : (p.handle h).Asks may := by
  induction p with
  | done a => trivial
  | ask q next ih => exact (hh q).bind ih
  | stuck => trivial

theorem Asks.imp {may may' : I.Ask → Prop} {p : Program I α} (h : p.Asks may)
    (hm : ∀ q, may q → may' q) : p.Asks may' := by
  induction p with
  | done a => trivial
  | ask q next ih => exact ⟨hm q h.1, fun reply => ih reply (h.2 reply)⟩
  | stuck => trivial

/-- Only the answers to what is asked matter. -/
theorem Meets.restrict_asks {may : I.Ask → Prop} {p : Program I α} (h : p.Meets rely post)
    (ha : p.Asks may) (hr : ∀ q reply, may q → rely' q reply → rely q reply) :
    p.Meets rely' post := by
  induction p with
  | done a => exact h
  | ask q next ih =>
    exact fun reply hq => ih reply (h reply (hr q reply ha.1 hq)) (ha.2 reply)
  | stuck => exact h

theorem Asks.exchanges {may : I.Ask → Prop} {p : Program I α} (h : p.Asks may) (s : σ) :
    ∀ e ∈ p.exchanges answer s, may e.ask := by
  induction p generalizing s with
  | done a => intro e he; cases he
  | ask q next ih => exact List.forall_mem_cons.mpr ⟨h.1, ih _ (h.2 _) _⟩
  | stuck => intro e he; cases he

end Program

end Watchtower
