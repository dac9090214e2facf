/-!
# Programs that talk to their surroundings

A program is a finite tree: it is done, or asks its surroundings a question and goes on with the
answer, or is stuck. What the surroundings are is left open, so one program runs against a real
node, a simulated one, or any behaviour that a theorem quantifies over.

* `Interface` : the questions and the type of each answer;
* `Program` : the trees, a monad;
* `Program.handle` : answers every question by a program over another interface;
* `Program.run` : answers every question by a function of a state;
* `Program.Yields p t a` : with the questions and answers of `t`, in order, `p` ends in `a`.
  Surroundings of any kind give rise to such a trace.

A loop takes the number of rounds it may go as an argument. One that uses them up is stuck: it
never returns, whatever the surroundings do.
-/

namespace Watchtower

structure Interface where
  Ask : Type
  Reply : Ask → Type

inductive Program (I : Interface) (α : Type) : Type
  | done (value : α)
  | ask (question : I.Ask) (next : I.Reply question → Program I α)
  | stuck

/-- A question with the answer it got. -/
structure Exchange (I : Interface) where
  ask : I.Ask
  reply : I.Reply ask

namespace Program

variable {I J : Interface} {α β σ : Type}

def bind : Program I α → (α → Program I β) → Program I β
  | done a, f => f a
  | ask q next, f => ask q fun reply => (next reply).bind f
  | stuck, _ => stuck

instance : Monad (Program I) where
  pure := done
  bind := bind

@[simp] theorem pure_eq_done (a : α) : (pure a : Program I α) = done a := rfl

@[simp] theorem done_bind (a : α) (f : α → Program I β) : (done a >>= f) = f a := rfl

@[simp] theorem ask_bind (q : I.Ask) (next : I.Reply q → Program I α) (f : α → Program I β) :
    (ask q next >>= f) = ask q fun reply => next reply >>= f := rfl

@[simp] theorem stuck_bind (f : α → Program I β) : ((stuck : Program I α) >>= f) = stuck := rfl

theorem bind_assoc {γ : Type} (p : Program I α) (f : α → Program I β) (g : β → Program I γ) :
    (p >>= f) >>= g = p >>= fun a => f a >>= g := by
  induction p with
  | done a => rfl
  | ask q next ih => simp only [ask_bind]; congr 1; funext r; exact ih r
  | stuck => rfl

theorem bind_done (p : Program I α) : (p >>= done) = p := by
  induction p with
  | done a => rfl
  | ask q next ih => simp only [ask_bind]; congr 1; funext r; exact ih r
  | stuck => rfl

instance : LawfulMonad (Program I) := LawfulMonad.mk' (Program I)
  (fun p => bind_done p) (fun _ _ => rfl) (fun p f g => bind_assoc p f g)

/-- Asks a question and returns the answer. -/
def query (q : I.Ask) : Program I (I.Reply q) := ask q done

/-- Answers every question by a program over `J`. -/
def handle (h : ∀ q : I.Ask, Program J (I.Reply q)) : Program I α → Program J α
  | done a => done a
  | ask q next => h q >>= fun reply => (next reply).handle h
  | stuck => stuck

/-- Answers every question by a function of a state; nothing if the program is stuck. -/
def run (answer : ∀ q : I.Ask, σ → I.Reply q × σ) : Program I α → σ → Option (α × σ)
  | done a, s => some (a, s)
  | ask q next, s =>
    let (reply, s) := answer q s
    (next reply).run answer s
  | stuck, _ => none

/-- With the questions and answers of the trace, in order, the program ends in a value. -/
inductive Yields : Program I α → List (Exchange I) → α → Prop
  | done (a : α) : Yields (done a) [] a
  | ask {q : I.Ask} {next : I.Reply q → Program I α} {reply : I.Reply q}
      {trace : List (Exchange I)} {a : α} (rest : Yields (next reply) trace a) :
      Yields (ask q next) (⟨q, reply⟩ :: trace) a

theorem yields_done_iff {a b : α} {trace : List (Exchange I)} :
    Yields (done a : Program I α) trace b ↔ trace = [] ∧ b = a := by
  constructor
  · rintro ⟨⟩; exact ⟨rfl, rfl⟩
  · rintro ⟨rfl, rfl⟩; exact .done _

theorem yields_ask_iff {q : I.Ask} {next : I.Reply q → Program I α} {trace : List (Exchange I)}
    {a : α} :
    Yields (ask q next) trace a ↔
      ∃ reply rest, trace = ⟨q, reply⟩ :: rest ∧ Yields (next reply) rest a := by
  constructor
  · rintro ⟨⟩; exact ⟨_, _, rfl, ‹_›⟩
  · rintro ⟨_, _, rfl, h⟩; exact .ask h

@[simp] theorem not_yields_stuck {trace : List (Exchange I)} {a : α} :
    ¬ Yields (stuck : Program I α) trace a := by rintro ⟨⟩

/-- A run of a sequence is a run of its first part and then one of the second. -/
theorem yields_bind_iff {p : Program I α} {f : α → Program I β} {trace : List (Exchange I)}
    {b : β} :
    Yields (p >>= f) trace b ↔
      ∃ a first second, trace = first ++ second ∧ Yields p first a ∧ Yields (f a) second b := by
  induction p generalizing trace with
  | done a =>
    simp only [done_bind, yields_done_iff]
    constructor
    · intro h; exact ⟨a, [], trace, rfl, ⟨rfl, rfl⟩, h⟩
    · rintro ⟨_, _, _, rfl, ⟨rfl, rfl⟩, h⟩; exact h
  | ask q next ih =>
    simp only [ask_bind, yields_ask_iff]
    constructor
    · rintro ⟨reply, rest, rfl, h⟩
      obtain ⟨a, first, second, rfl, h1, h2⟩ := (ih reply).mp h
      exact ⟨a, _, second, rfl, ⟨reply, first, rfl, h1⟩, h2⟩
    · rintro ⟨a, _, second, rfl, ⟨reply, first, rfl, h1⟩, h2⟩
      exact ⟨reply, first ++ second, rfl, (ih reply).mpr ⟨a, first, second, rfl, h1, h2⟩⟩
  | stuck => simp

/-- The exchanges of a run against a state. -/
def exchanges (answer : ∀ q : I.Ask, σ → I.Reply q × σ) : Program I α → σ → List (Exchange I)
  | done _, _ => []
  | ask q next, s =>
    ⟨q, (answer q s).1⟩ :: (next (answer q s).1).exchanges answer (answer q s).2
  | stuck, _ => []

/-- A run against a state is a run with the trace of its exchanges. -/
theorem yields_of_run {answer : ∀ q : I.Ask, σ → I.Reply q × σ} {p : Program I α} {s t : σ}
    {a : α} (h : p.run answer s = some (a, t)) : Yields p (p.exchanges answer s) a := by
  induction p generalizing s with
  | done b => simp only [run, Option.some.injEq, Prod.mk.injEq] at h; rw [← h.1]; exact .done b
  | ask q next ih => exact .ask (ih _ h)
  | stuck => simp [run] at h

end Program

end Watchtower
