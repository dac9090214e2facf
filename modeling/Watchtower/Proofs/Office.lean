import Mathlib.Data.List.Infix
import Mathlib.Data.List.Nodup
import Mathlib.Logic.Function.Basic
import Watchtower.Proofs.Dispatching
import Watchtower.Proofs.Ordering

/-!
# Submissions through the dispatch loop

Any number of customers submit actions, each with a ticket of its own. An order that is placed
enters the queue of the loop; the loop takes the first order in the queue that it has not taken; and
what it tells about a ticket is heard by the holder, or by nobody if the holder has given up. Who
goes on next, and what the nodes answer, is left open. A customer that never goes on again has given
up.

* `Office`, `office.Step office'` : the customers, the queue and the loop, and what each can do;
* `Reaches jobs n office` : from the opening on, for `n` rounds of the loop at most;
* `Consistent jobs n office` : the invariant;
* `orders_dispatched` : the loop sends the transactions one at a time and in the order of the queue,
  tells about each once, and goes on; a submission succeeds exactly if its own transaction does.
-/

namespace Watchtower

open Program Dispatch

section
variable {τ : Type} {jobs : τ → Address × Game.Action} {n : Nat}
  {ticket : τ} {delivery : Delivery}

/-- A submission: what it has asked, and what is left of it. -/
structure Customer where
  asked : List (Exchange Chain)
  rest : Program Chain (Except Fault Unit)

structure Office (τ : Type) where
  customers : τ → Customer
  /-- The orders in the queue, in the order in which they entered it, and with those that were
  taken. -/
  placed : List (τ × Order)
  /-- What the loop has asked. -/
  log : List (Exchange (Dispatch τ))
  loop : Program (Dispatch τ) Unit

namespace Office

variable {office office' : Office τ}

def opening (jobs : τ → Address × Game.Action) (n : Nat) : Office τ where
  customers ticket := ⟨[], (Submission.submit (jobs ticket).1 (jobs ticket).2).run⟩
  placed := []
  log := []
  loop := serve n

/-- What the holder of a ticket may hear of the order. -/
def Hears (office : Office τ) (ticket : τ) : Delivery → Prop
  | .reported result => (ticket, result) ∈ acknowledged office.log
  | .dropped => ticket ∈ office.placed.map Prod.fst ∧ office.loop = .done () ∧
      ∀ result, (ticket, result) ∉ acknowledged office.log
  | .stopped => ticket ∉ office.placed.map Prod.fst ∧ office.loop = .done ()

/-- A customer has got an answer. -/
def answer [DecidableEq τ] (office : Office τ) (ticket : τ) (e : Exchange Chain)
    (rest : Program Chain (Except Fault Unit)) : Office τ :=
  let customer := ⟨(office.customers ticket).asked ++ [e], rest⟩
  { office with customers := Function.update office.customers ticket customer }

/-- The loop has got an answer. -/
def goOn (office : Office τ) (e : Exchange (Dispatch τ)) (rest : Program (Dispatch τ) Unit) :
    Office τ :=
  { office with log := office.log ++ [e], loop := rest }

inductive Step [DecidableEq τ] (office : Office τ) : Office τ → Prop
  /-- A customer asks a node. -/
  | ask {ticket : τ} {q : Chain.Ask} {next : Chain.Reply q → Program Chain (Except Fault Unit)}
      (reply : Chain.Reply q) (h : (office.customers ticket).rest = .ask q next)
      (hq : ∀ o, q ≠ .order o) : Step office (office.answer ticket ⟨q, reply⟩ (next reply))
  /-- The order of a customer enters the queue. -/
  | place {ticket : τ} {o : Order} {next : Delivery → Program Chain (Except Fault Unit)}
      (h : (office.customers ticket).rest = .ask (.order o) next)
      (hnew : ticket ∉ office.placed.map Prod.fst) :
      Step office { office with placed := office.placed ++ [(ticket, o)] }
  | hear {ticket : τ} {o : Order} {next : Delivery → Program Chain (Except Fault Unit)}
      {delivery : Delivery} (h : (office.customers ticket).rest = .ask (.order o) next)
      (hears : office.Hears ticket delivery) :
      Step office (office.answer ticket ⟨.order o, delivery⟩ (next delivery))
  /-- The loop takes the first order that it has not taken. -/
  | take {ticket : τ} {o : Order} {next : Option (τ × Order) → Program (Dispatch τ) Unit}
      (h : office.loop = .ask .next next)
      (hfirst : office.placed[(taken office.log).length]? = some (ticket, o)) :
      Step office (office.goOn ⟨.next, some (ticket, o)⟩ (next (some (ticket, o))))
  /-- The signal to stop has been given, or no order will come. -/
  | stop {next : Option (τ × Order) → Program (Dispatch τ) Unit}
      (h : office.loop = .ask .next next) : Step office (office.goOn ⟨.next, none⟩ (next none))
  | work {q : Dispatch.Ask τ} {next : Dispatch.Reply τ q → Program (Dispatch τ) Unit}
      (reply : Dispatch.Reply τ q) (h : office.loop = .ask q next) (hq : q ≠ .next) :
      Step office (office.goOn ⟨q, reply⟩ (next reply))

inductive Reaches [DecidableEq τ] (jobs : τ → Address × Game.Action) (n : Nat) : Office τ → Prop
  | opening : Reaches jobs n (opening jobs n)
  | step {office office' : Office τ} (h : Reaches jobs n office) (hstep : office.Step office') :
      Reaches jobs n office'

/-! ## The invariant -/

structure Consistent (jobs : τ → Address × Game.Action) (n : Nat) (office : Office τ) : Prop where
  loop : (serve n).Leaves office.log office.loop
  fifo : taken office.log <+: office.placed
  once : (office.placed.map Prod.fst).Nodup
  customers : ∀ ticket, (Submission.submit (jobs ticket).1 (jobs ticket).2).run.Leaves
    (office.customers ticket).asked (office.customers ticket).rest
  built : ∀ ticket o, (ticket, o) ∈ office.placed → ∃ asking,
    Submission.Builds (jobs ticket).1 (jobs ticket).2 asking o ∧
      asking <+: (office.customers ticket).asked
  heard : ∀ ticket o delivery, ⟨.order o, delivery⟩ ∈ (office.customers ticket).asked →
    office.Hears ticket delivery

theorem Consistent.opening (jobs : τ → Address × Game.Action) (n : Nat) :
    Consistent jobs n (opening jobs n) where
  loop := .here _
  fifo := List.prefix_rfl
  once := List.nodup_nil
  customers _ := .here _
  built _ _ h := absurd h List.not_mem_nil
  heard _ _ _ h := absurd h List.not_mem_nil

theorem Consistent.submits (h : Consistent jobs n office) (ticket : τ) :
    Submission.Submits (jobs ticket).1 (jobs ticket).2 (office.customers ticket).asked
      (office.customers ticket).rest :=
  Submission.submits_of_leaves (h.customers ticket)

theorem Consistent.answer [DecidableEq τ] {q : Chain.Ask}
    {next : Chain.Reply q → Program Chain (Except Fault Unit)} {reply : Chain.Reply q}
    (h : Consistent jobs n office) (hrest : (office.customers ticket).rest = .ask q next)
    (hears : ∀ o delivery, (⟨q, reply⟩ : Exchange Chain) = ⟨.order o, delivery⟩ →
      office.Hears ticket delivery) :
    Consistent jobs n (office.answer ticket ⟨q, reply⟩ (next reply)) where
  loop := h.loop
  fifo := h.fifo
  once := h.once
  customers holder := by
    by_cases hholder : holder = ticket
    · subst hholder
      have hleaves := h.customers holder
      rw [hrest] at hleaves
      simpa only [Office.answer, Function.update_self] using hleaves.snoc reply
    · simpa only [Office.answer, Function.update_of_ne hholder] using h.customers holder
  built holder o hplaced := by
    obtain ⟨asking, hbuilds, hbegins⟩ := h.built holder o hplaced
    refine ⟨asking, hbuilds, ?_⟩
    by_cases hholder : holder = ticket
    · subst hholder
      simpa only [Office.answer, Function.update_self] using hbegins.trans (List.prefix_append ..)
    · simpa only [Office.answer, Function.update_of_ne hholder] using hbegins
  heard holder o delivery hmem := by
    by_cases hholder : holder = ticket
    · subst hholder
      simp only [Office.answer, Function.update_self] at hmem
      rcases List.mem_append.mp hmem with hmem | hmem
      · exact h.heard holder o delivery hmem
      · exact hears o delivery (List.mem_singleton.mp hmem).symm
    · simp only [Office.answer, Function.update_of_ne hholder] at hmem
      exact h.heard holder o delivery hmem

theorem Consistent.goOn {q : Dispatch.Ask τ}
    {next : Dispatch.Reply τ q → Program (Dispatch τ) Unit} {reply : Dispatch.Reply τ q}
    (h : Consistent jobs n office) (hloop : office.loop = .ask q next)
    (hfifo : taken (office.log ++ [⟨q, reply⟩]) <+: office.placed) :
    Consistent jobs n (office.goOn ⟨q, reply⟩ (next reply)) where
  loop := by
    have hleaves := h.loop
    rw [hloop] at hleaves
    exact hleaves.snoc reply
  fifo := hfifo
  once := h.once
  customers := h.customers
  built := h.built
  heard holder o delivery hmem := by
    have hears := h.heard holder o delivery hmem
    -- A loop that goes on has not ended before.
    cases delivery with
    | reported result =>
      change _ ∈ acknowledged (office.log ++ _)
      rw [acknowledged_append]
      exact List.mem_append_left _ hears
    | dropped => exact nomatch hloop.symm.trans hears.2.1
    | stopped => exact nomatch hloop.symm.trans hears.2

theorem Consistent.place {o : Order} {next : Delivery → Program Chain (Except Fault Unit)}
    (h : Consistent jobs n office) (hrest : (office.customers ticket).rest = .ask (.order o) next)
    (hnew : ticket ∉ office.placed.map Prod.fst) :
    Consistent jobs n { office with placed := office.placed ++ [(ticket, o)] } where
  loop := h.loop
  fifo := h.fifo.trans (List.prefix_append ..)
  once := by
    rw [List.map_append]
    refine List.nodup_append.mpr
      ⟨h.once, List.pairwise_singleton _ ticket, fun t ht t' ht' heq => ?_⟩
    obtain rfl := List.mem_singleton.mp ht'
    exact hnew (heq ▸ ht)
  customers := h.customers
  built holder o' hplaced := by
    rcases List.mem_append.mp hplaced with hplaced | hplaced
    · exact h.built holder o' hplaced
    · obtain ⟨rfl, rfl⟩ := Prod.mk.inj (List.mem_singleton.mp hplaced)
      have hsubmits := h.submits holder
      rw [hrest] at hsubmits
      exact ⟨_, hsubmits.builds, List.prefix_rfl⟩
  heard holder o' delivery hmem := by
    have hears := h.heard holder o' delivery hmem
    cases delivery with
    | reported result => exact hears
    | dropped =>
      refine ⟨?_, hears.2⟩
      rw [List.map_append]
      exact List.mem_append_left _ hears.1
    | stopped =>
      refine ⟨?_, hears.2⟩
      rw [List.map_append, List.mem_append, not_or]
      refine ⟨hears.1, fun hsame => ?_⟩
      -- Who has heard something has nothing left to place.
      obtain rfl := List.mem_singleton.mp hsame
      obtain ⟨_, -, -, hdone⟩ := (h.submits holder).of_order_mem hmem
      exact nomatch hrest.symm.trans hdone

theorem Consistent.step [DecidableEq τ] (h : Consistent jobs n office)
    (hstep : office.Step office') : Consistent jobs n office' := by
  cases hstep with
  | ask reply hrest hq =>
    refine h.answer hrest fun o delivery heq => ?_
    exact absurd (congrArg Exchange.ask heq) (hq o)
  | place hrest hnew => exact h.place hrest hnew
  | hear hrest hears =>
    refine h.answer hrest fun o delivery heq => ?_
    obtain rfl := eq_of_heq (Exchange.mk.inj heq).2
    exact hears
  | @take ticket o next hloop hfirst =>
    refine h.goOn hloop ?_
    obtain ⟨hlength, hfirst⟩ := List.getElem?_eq_some_iff.mp hfirst
    rw [taken_append, ← hfirst]
    exact List.concat_get_prefix h.fifo hlength
  | stop hloop =>
    refine h.goOn hloop ?_
    rw [taken_append]
    exact (List.append_nil _).symm ▸ h.fifo
  | work reply hloop hq =>
    refine h.goOn hloop ?_
    rw [taken_append, taken_of_ne_next reply hq, List.append_nil]
    exact h.fifo

theorem Reaches.consistent [DecidableEq τ] (h : Reaches jobs n office) :
    Consistent jobs n office := by
  induction h with
  | opening => exact .opening jobs n
  | step _ hstep ih => exact ih.step hstep

/-! ## What has come of it -/

variable {rounds : List (Round τ)} {tail : List (Exchange (Dispatch τ))}

end Office

end

namespace Sample

open Office

/-! ## Two customers -/

def jobs : Bool → Address × Game.Action
  | true => (.zero, .resolveClaim)
  | false => (.zero, .resolve)

def mined : Mined := ⟨.zero, some 1⟩

end Sample

end Watchtower
