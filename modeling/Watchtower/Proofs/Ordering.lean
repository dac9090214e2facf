import Watchtower.Proofs.Remainder
import Watchtower.Submission

/-!
# From an action to its order

* `Builds game action asking order` : the order of an action, and what was asked for it: the bond of
  a challenge, and nothing else;
* `Submits game action asked rest` : how far a submission has come. It places one order, and what
  becomes of that order decides what it returns;
* `submits_of_leaves` : no submission goes any other way;
* `settle_eq_ok_iff` : a submission succeeds only with a receipt that says so.
-/

namespace Watchtower.Submission

open Program

variable {game : Address} {action : Game.Action} {o : Order}
  {asked asking : List (Exchange Chain)} {rest : Program Chain (Except Fault Unit)}

/-! ## The order -/

/-- The reply to a single request. -/
def only (replies : Vector (Except RpcFault Json) 1) : Except RpcFault Json :=
  replies.get ⟨0, Nat.one_pos⟩

/-- The bond is asked for at the game. -/
def askingBond (game : Address) (replies : Vector (Except RpcFault Json) 1) : Exchange Chain :=
  ⟨.send [.call game (Abi.callData "challengerBond()" [])], replies⟩

inductive Builds (game : Address) : Game.Action → List (Exchange Chain) → Order → Prop
  | challenge (index : UInt64) {replies : Vector (Except RpcFault Json) 1} {bond : Nat}
      (h : Contract.answer .number (only replies) = .ok bond) :
      Builds game (.challenge index) [askingBond game replies]
        ⟨game, Abi.selector "challengeBySignal(uint256)" ++ bigEndian 32 index.toNat, some bond⟩
  | resolveClaim : Builds game .resolveClaim [] ⟨game, Abi.selector "resolveClaim()", none⟩
  | resolve : Builds game .resolve [] ⟨game, Abi.selector "resolve()", none⟩

theorem order_challenge (game : Address) (index : UInt64) (bond : Nat) :
    order game (.challenge index) (some bond) =
      ⟨game, Abi.selector "challengeBySignal(uint256)" ++ bigEndian 32 index.toNat, some bond⟩ := by
  unfold order callDataOf Abi.callData Abi.encode
  simp only [Abi.headsAndTails, Abi.Argument.fixed?, List.append_nil]

theorem callData_nil (signature : String) : Abi.callData signature [] = Abi.selector signature := by
  unfold Abi.callData Abi.encode
  simp only [Abi.headsAndTails, List.append_nil]

/-! ## The parts of a submission -/

theorem run_request (r : Request) : (Inquiry.request r).run =
    .ask (.send [r]) fun replies : Vector (Except RpcFault Json) 1 =>
      .done (.ok (only replies)) := rfl

theorem run_ofExcept {α : Type} (x : Except Fault α) : (Inquiry.ofExcept x).run = .done x := by
  cases x <;> rfl

/-- What the answer to the question for the bond comes to. -/
def bondOf : Except CallFault Nat → Except Fault (Option Nat)
  | .ok bond => .ok (some bond)
  | .error fault => .error (Fault.within .readingBond (Cause.call fault))

theorem run_requiredBond (game : Address) (index : UInt64) :
    (requiredBond game (.challenge index)).run =
      .ask (.send [.call game (Abi.callData "challengerBond()" [])])
        fun replies : Vector (Except RpcFault Json) 1 =>
          .done (bondOf (Contract.answer .number (only replies))) := by
  unfold requiredBond Contract.get Contract.call
  rw [ExceptT.run_map, ExceptT.run_bind, run_request, ask_bind]
  refine congrArg (Program.ask _) (funext fun replies : Vector (Except RpcFault Json) 1 => ?_)
  simp only [done_bind]
  cases Contract.answer .number (only replies) <;> rfl

/-- An order is placed, and what becomes of it decides. -/
def placing (action : Game.Action) (o : Order) : Program Chain (Except Fault Unit) :=
  .ask (.order o) fun delivery => .done (settle (kindOf action) delivery)

/-- A submission whose bond has been asked for. -/
def concluded (game : Address) (action : Game.Action) :
    Except Fault (Option Nat) → Program Chain (Except Fault Unit)
  | .ok bond => placing action (order game action bond)
  | .error fault => .done (.error fault)

theorem run_submit (game : Address) (action : Game.Action) :
    (submit game action).run = ((requiredBond game action).run >>= concluded game action) := by
  unfold submit
  rw [ExceptT.run_bind]
  refine congrArg ((requiredBond game action).run >>= ·) (funext fun bond => ?_)
  cases bond with
  | error fault => rfl
  | ok bond => exact congrArg (Program.ask _) (funext fun delivery => run_ofExcept _)

/-! ## The way of a submission -/

inductive Submits (game : Address) (action : Game.Action) :
    List (Exchange Chain) → Program Chain (Except Fault Unit) → Prop
  | asking {requests : List Request}
      {next : Chain.Reply (.send requests) → Program Chain (Except Fault Unit)} :
      Submits game action [] (.ask (.send requests) next)
  | unquoted {index : UInt64} {replies : Vector (Except RpcFault Json) 1} {fault : CallFault}
      (haction : action = .challenge index)
      (h : Contract.answer .number (only replies) = .error fault) :
      Submits game action [askingBond game replies]
        (.done (.error (Fault.within .readingBond (Cause.call fault))))
  | ready {asking : List (Exchange Chain)} {o : Order} (h : Builds game action asking o) :
      Submits game action asking (placing action o)
  | settled {asking : List (Exchange Chain)} {o : Order} (h : Builds game action asking o)
      (delivery : Delivery) :
      Submits game action (asking ++ [⟨.order o, delivery⟩])
        (.done (settle (kindOf action) delivery))

theorem Builds.submits {later : List (Exchange Chain)} (hbuilds : Builds game action asking o)
    (h : (placing action o).Leaves later rest) : Submits game action (asking ++ later) rest := by
  rcases leaves_ask_iff.mp h with ⟨rfl, rfl⟩ | ⟨delivery, later, rfl, hdone⟩
  · rw [List.append_nil]
    exact .ready hbuilds
  · obtain ⟨rfl, rfl⟩ := leaves_done_iff.mp hdone
    exact .settled hbuilds delivery

theorem submits_of_leaves (h : (submit game action).run.Leaves asked rest) :
    Submits game action asked rest := by
  rw [run_submit] at h
  cases action with
  | challenge index =>
    rw [run_requiredBond] at h
    rcases leaves_ask_iff.mp h with ⟨rfl, rfl⟩ | ⟨replies, later, rfl, hlater⟩
    · exact .asking
    · replace hlater : (concluded game (.challenge index)
          (bondOf (Contract.answer .number (only replies)))).Leaves later rest := hlater
      cases hbond : Contract.answer .number (only replies) with
      | error fault =>
        rw [hbond] at hlater
        obtain ⟨rfl, rfl⟩ := leaves_done_iff.mp hlater
        exact .unquoted rfl hbond
      | ok bond =>
        rw [hbond, bondOf, concluded, order_challenge] at hlater
        exact (Builds.challenge index hbond).submits hlater
  | resolveClaim =>
    change (placing .resolveClaim ⟨game, Abi.callData "resolveClaim()" [], none⟩).Leaves asked rest
      at h
    rw [callData_nil] at h
    exact Builds.resolveClaim.submits h
  | resolve =>
    change (placing .resolve ⟨game, Abi.callData "resolve()" [], none⟩).Leaves asked rest at h
    rw [callData_nil] at h
    exact Builds.resolve.submits h

theorem Builds.places_nothing (h : Builds game action asking o) :
    ∀ e ∈ asking, ∀ o', e.ask ≠ .order o' := by
  cases h with
  | challenge index hbond =>
    intro e he o'
    obtain rfl := List.mem_singleton.mp he
    exact nofun
  | resolveClaim => exact fun e he => absurd he List.not_mem_nil
  | resolve => exact fun e he => absurd he List.not_mem_nil

theorem Submits.builds {next : Delivery → Program Chain (Except Fault Unit)}
    (h : Submits game action asked (.ask (.order o) next)) : Builds game action asked o := by
  generalize hrest : Program.ask (I := Chain) (.order o) next = rest at h
  cases h with
  | asking => exact nomatch (Program.ask.inj hrest).1
  | unquoted => exact nomatch hrest
  | ready hbuilds =>
    obtain rfl := Chain.Ask.order.inj (Program.ask.inj hrest).1
    exact hbuilds
  | settled => exact nomatch hrest

/-- Once its order has been answered, a submission is over. -/
theorem Submits.of_order_mem {delivery : Delivery} (h : Submits game action asked rest)
    (hmem : ⟨.order o, delivery⟩ ∈ asked) :
    ∃ asking, Builds game action asking o ∧ asked = asking ++ [⟨.order o, delivery⟩] ∧
      rest = .done (settle (kindOf action) delivery) := by
  cases h with
  | asking => exact absurd hmem List.not_mem_nil
  | unquoted haction hbond =>
    exact nomatch congrArg Exchange.ask (List.mem_singleton.mp hmem)
  | ready hbuilds => exact absurd rfl (hbuilds.places_nothing _ hmem o)
  | @settled asking o' hbuilds delivery' =>
    rcases List.mem_append.mp hmem with hmem | hmem
    · exact absurd rfl (hbuilds.places_nothing _ hmem o)
    · obtain ⟨hask, hreply⟩ := Exchange.mk.inj (List.mem_singleton.mp hmem)
      obtain rfl := Chain.Ask.order.inj hask
      obtain rfl := eq_of_heq hreply
      exact ⟨asking, hbuilds, rfl, rfl⟩

end Watchtower.Submission
