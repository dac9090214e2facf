import Watchtower.Proofs.Rely

/-!
# What is left of a program

`p.Leaves trace rest` : after the exchanges of `trace` the program `p` is left with `rest`. A
program that has come to its end is left with its value (`leaves_value_iff`), so runs that go on for
ever, or that are only looked at so far, are covered too.

* `Leaves.append`, `Leaves.snoc` : a run goes on from what is left;
* `leaves_bind_iff` : of a sequence there is left the second part after what is left of the first,
  or what is left of the second.
-/

namespace Watchtower.Program

variable {I : Interface} {α β : Type} {p m rest : Program I α} {f : α → Program I β} {q : I.Ask}
  {next : I.Reply q → Program I α} {trace first second : List (Exchange I)} {a : α}

inductive Leaves : Program I α → List (Exchange I) → Program I α → Prop
  | here (p : Program I α) : Leaves p [] p
  | ask {q : I.Ask} {next : I.Reply q → Program I α} {reply : I.Reply q}
      {trace : List (Exchange I)} {rest : Program I α} (h : Leaves (next reply) trace rest) :
      Leaves (ask q next) (⟨q, reply⟩ :: trace) rest

theorem leaves_done_iff : (done a).Leaves trace rest ↔ trace = [] ∧ rest = done a := by
  constructor
  · rintro ⟨⟩
    exact ⟨rfl, rfl⟩
  · rintro ⟨rfl, rfl⟩
    exact .here _

theorem leaves_stuck_iff : (stuck : Program I α).Leaves trace rest ↔ trace = [] ∧ rest = stuck := by
  constructor
  · rintro ⟨⟩
    exact ⟨rfl, rfl⟩
  · rintro ⟨rfl, rfl⟩
    exact .here _

theorem leaves_ask_iff : (ask q next).Leaves trace rest ↔ (trace = [] ∧ rest = ask q next) ∨
    ∃ reply later, trace = ⟨q, reply⟩ :: later ∧ (next reply).Leaves later rest := by
  constructor
  · rintro (_ | h)
    · exact .inl ⟨rfl, rfl⟩
    · exact .inr ⟨_, _, rfl, h⟩
  · rintro (⟨rfl, rfl⟩ | ⟨reply, later, rfl, h⟩)
    · exact .here _
    · exact .ask h

theorem Leaves.append (h : p.Leaves first m) (h' : m.Leaves second rest) :
    p.Leaves (first ++ second) rest := by
  induction h with
  | here p => exact h'
  | ask _ ih => exact .ask (ih h')

/-- One more question is answered. -/
theorem Leaves.snoc (h : p.Leaves trace (Program.ask q next)) (reply : I.Reply q) :
    p.Leaves (trace ++ [⟨q, reply⟩]) (next reply) :=
  h.append (.ask (.here _))

theorem leaves_value_iff : p.Leaves trace (done a) ↔ p.Yields trace a := by
  constructor
  · intro h
    generalize hrest : done a = rest at h
    induction h with
    | here p =>
      subst hrest
      exact .done a
    | ask _ ih => exact .ask (ih hrest)
  · intro h
    induction h with
    | done a => exact .here _
    | ask _ ih => exact .ask ih

/-- What is left of a program asks nothing but what the program does. -/
theorem Asks.of_leaves {may : I.Ask → Prop} (hp : p.Asks may) (h : p.Leaves trace rest) :
    (∀ e ∈ trace, may e.ask) ∧ rest.Asks may := by
  induction h with
  | here p => exact ⟨List.forall_mem_nil _, hp⟩
  | ask _ ih =>
    obtain ⟨htrace, hrest⟩ := ih (hp.2 _)
    exact ⟨List.forall_mem_cons.mpr ⟨hp.1, htrace⟩, hrest⟩

theorem leaves_bind_iff {rest : Program I β} : (p >>= f).Leaves trace rest ↔
    (∃ m, p.Leaves trace m ∧ rest = m >>= f) ∨
    ∃ a first second, trace = first ++ second ∧ p.Yields first a ∧ (f a).Leaves second rest := by
  constructor
  · intro h
    induction p generalizing trace with
    | done a => exact .inr ⟨a, [], trace, rfl, .done a, h⟩
    | ask q next ih =>
      rcases leaves_ask_iff.mp h with ⟨rfl, rfl⟩ | ⟨reply, later, rfl, hlater⟩
      · exact .inl ⟨ask q next, .here _, rfl⟩
      · rcases ih reply hlater with ⟨m, hm, rfl⟩ | ⟨a, first, second, rfl, hfirst, hsecond⟩
        · exact .inl ⟨m, .ask hm, rfl⟩
        · exact .inr ⟨a, _, second, rfl, .ask hfirst, hsecond⟩
    | stuck =>
      obtain ⟨rfl, rfl⟩ := leaves_stuck_iff.mp h
      exact .inl ⟨stuck, .here _, rfl⟩
  · rintro (⟨m, hm, rfl⟩ | ⟨a, first, second, rfl, hfirst, hsecond⟩)
    · induction hm with
      | here p => exact .here _
      | ask _ ih => exact .ask ih
    · induction hfirst with
      | done a => exact hsecond
      | ask _ ih => exact .ask (ih hsecond)

end Watchtower.Program
