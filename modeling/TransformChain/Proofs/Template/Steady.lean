import TransformChain.Proofs.Template.Closure

/-!
# What evaluation does to the state

A relation between the states before and after an action, whatever its outcome.  When it can be
put together along a run, it is a closed property of actions, and when the actions on the state have
it, too, every evaluation does.
-/

namespace TransformChain
namespace Template

open Template.Action

/-- The action relates the state it starts in to the one it ends in, also where it fails. -/
def Steady (P : State → State → Prop) (a : Action α) : Prop :=
  ∀ x, P x (a x).2

theorem Steady.yields {P : State → State → Prop} {a : Action α} (h : Steady P a) {x y : State}
    {value : α} (hyields : Yields a x value y) : P x y := by
  have hstate := h x
  rw [hyields] at hstate
  exact hstate

structure Lasting (P : State → State → Prop) : Prop where
  refl : ∀ x, P x x
  trans : ∀ {x y z}, P x y → P y z → P x z

section Rules

variable {P : State → State → Prop}

theorem Lasting.after_bind (h : Lasting P) {a : Action α} {f : α → Action β}
    (hf : ∀ value, Steady P (f value)) (x : State) : P (a x).2 ((a >>= f) x).2 := by
  change P (a x).2 (andThen a f x).2
  unfold andThen
  rcases a x with ⟨outcome, next⟩
  cases outcome with
  | done value => exact hf value next
  | failed error => exact h.refl next
  | spent => exact h.refl next

theorem Lasting.bind (h : Lasting P) {a : Action α} {f : α → Action β} (ha : Steady P a)
    (hf : ∀ value, Steady P (f value)) : Steady P (a >>= f) :=
  fun x => h.trans (ha x) (h.after_bind hf x)

theorem Steady.ite {condition : Prop} [Decidable condition] {a b : Action α} (ha : Steady P a)
    (hb : Steady P b) : Steady P (if condition then a else b) :=
  ite_closed (Q := fun a => Steady P a) ha hb

theorem Steady.succeeds {a : Action α} (ha : Steady P a) : Steady P (Action.succeeds a) := by
  intro x
  have hstate := ha x
  unfold Action.succeeds
  rcases hax : a x with ⟨outcome, next⟩
  rw [hax] at hstate
  cases outcome <;> exact hstate

theorem Lasting.closed (h : Lasting P) : Closed (Steady P) where
  pure _ x := h.refl x
  fail _ x := h.refl x
  bind := h.bind
  lookup _ _ x := h.refl x
  succeeds := Steady.succeeds

end Rules

/-!
## Evaluation as a whole
-/

/-- Besides lasting, the relation holds of the actions on the state, and of those with another
action inside wherever it holds of that one. -/
structure Enduring (P : State → State → Prop) : Prop extends Lasting P where
  assign : ∀ name value, Steady P (Action.assign name value)
  declare : ∀ template column, Steady P (Action.declare template column)
  inFrame : ∀ (frame : Frame) {a : Action String}, Steady P a → Steady P (Action.inFrame frame a)
  isolated : ∀ (frame : Frame) {a : Action String}, Steady P a → Steady P (Action.isolated frame a)
  nested : ∀ (template : String) {a : Action String}, Steady P a →
    Steady P (Action.nested template a)

structure SteadyTrees (P : State → State → Prop) (calls : Calls) : Prop where
  value : ∀ e, Steady P (calls.value e)
  body : ∀ ns, Steady P (calls.body ns)

def unchecked : NodeCheck :=
  callCheck fun _ _ _ => true

section Evaluation

variable {P : State → State → Prop} {scene : Scene} {calls : Calls}

theorem Enduring.callByName (h : Enduring P) (hcalls : SteadyTrees P calls) (name : String)
    (call : Function.Call) : Steady P (Template.callByName scene calls name call) := by
  apply callByName_closed h.closed h.declare
  · exact fun ns => h.nested _ (hcalls.body ns)
  · intro target _ call
    apply callMacro_closed h.closed
    · exact fun e _ => hcalls.value e
    · exact fun frame => h.nested _ (h.isolated frame (hcalls.body target.body))

theorem Enduring.closedNodes (h : Enduring P) (hcalls : SteadyTrees P calls) :
    ClosedNodes (Steady P) scene calls unchecked where
  closed := h.closed
  functions _ call := h.callByName hcalls _ call
  prints h := by cases h
  sets _ value := h.assign _ value
  frame frame _ ha := h.inFrame frame ha

/-- By induction on the budget: what one level of calls keeps, the next one keeps. -/
theorem Enduring.within (h : Enduring P) (scene : Scene) (budget : Nat) :
    SteadyTrees P (Calls.within scene budget) := by
  induction budget with
  | zero => exact ⟨fun _ x => h.refl x, fun _ x => h.refl x⟩
  | succ budget ih =>
      exact ⟨fun e => (h.closedNodes ih).expr (callCheck_expr (fun _ _ _ => rfl) e),
        fun ns => execAll_closed (h.closedNodes ih) ns (callCheck_nodes (fun _ _ _ => rfl) ns)⟩

theorem Enduring.nodes (h : Enduring P) (scene : Scene) (budget : Nat) :
    ClosedNodes (Steady P) scene (.within scene budget) unchecked :=
  h.closedNodes (h.within scene budget)

theorem Enduring.eval (h : Enduring P) (scene : Scene) (budget : Nat) (e : Expr) :
    Steady P (Template.eval scene (.within scene budget) e) :=
  (h.within scene (budget + 1)).value e

theorem Enduring.execAll (h : Enduring P) (scene : Scene) (budget : Nat) (ns : List Node) :
    Steady P (Template.execAll scene (.within scene budget) ns) :=
  (h.within scene (budget + 1)).body ns

theorem Enduring.evalAll (h : Enduring P) (scene : Scene) (budget : Nat) (es : List Expr) :
    Steady P (Template.evalAll scene (.within scene budget) es) :=
  evalAll_closed h.closed (h.nodes scene budget).functions es (callCheck_exprs (fun _ _ _ => rfl) es)

theorem Enduring.evalEntries (h : Enduring P) (scene : Scene) (budget : Nat)
    (es : List (Expr × Expr)) : Steady P (Template.evalEntries scene (.within scene budget) es) :=
  evalEntries_closed h.closed (h.nodes scene budget).functions es
    (callCheck_entries (fun _ _ _ => rfl) es)

theorem Enduring.evalNamed (h : Enduring P) (scene : Scene) (budget : Nat)
    (es : List (String × Expr)) : Steady P (Template.evalNamed scene (.within scene budget) es) :=
  evalNamed_closed h.closed (h.nodes scene budget).functions es
    (callCheck_named (fun _ _ _ => rfl) es)

theorem Enduring.filterOperand (h : Enduring P) (scene : Scene) (budget : Nat) (name : String)
    (e : Expr) : Steady P (Template.filterOperand scene (.within scene budget) name e) :=
  filterOperand_closed h.closed name (callCheck_expr (fun _ _ _ => rfl) e) (h.eval scene budget e)

theorem Enduring.callRest (h : Enduring P) (scene : Scene) (budget : Nat) (callee : Expr)
    (positional : List Value) (named : List (String × Value)) :
    Steady P (Template.callRest scene (.within scene budget) callee positional named) :=
  callRest_closed h.closed (fun base _ _ => h.eval scene budget base)
    (fun name _ call => h.callByName (h.within scene budget) name call) positional named

theorem Enduring.binaryRest (h : Enduring P) (scene : Scene) (budget : Nat) (op : BinaryOp)
    (left : Value) (right : Expr) :
    Steady P (Template.binaryRest scene (.within scene budget) op left right) :=
  binaryRest_closed h.closed op left (h.eval scene budget right)

theorem Enduring.condRest (h : Enduring P) (scene : Scene) (budget : Nat) (condition : Value)
    (yes : Expr) (no : Option Expr) :
    Steady P (Template.condRest scene (.within scene budget) condition yes no) :=
  condRest_closed h.closed condition (h.eval scene budget yes) fun e _ => h.eval scene budget e

theorem Enduring.bindParameters (h : Enduring P) (scene : Scene) (budget : Nat)
    (params : List MacroParameter) (args : List Value) (named : List (String × Value))
    (frame : Frame) :
    Steady P (Template.bindParameters (.within scene budget) params args named frame) :=
  bindParameters_closed h.closed params args named frame fun e _ =>
    (h.within scene budget).value e

theorem Enduring.exec (h : Enduring P) (scene : Scene) (budget : Nat) (n : Node) :
    Steady P (Template.exec scene (.within scene budget) n) :=
  exec_closed (h.nodes scene budget) n (callCheck_node (fun _ _ _ => rfl) n)

theorem Enduring.execBranches (h : Enduring P) (scene : Scene) (budget : Nat)
    (branches : List (Expr × List Node)) (otherwise : List Node) :
    Steady P (Template.execBranches scene (.within scene budget) branches
      (Template.execAll scene (.within scene budget) otherwise)) :=
  execBranches_closed (h.nodes scene budget) branches (h.execAll scene budget otherwise)
    (callCheck_branches (fun _ _ _ => rfl) branches)

theorem Enduring.runLoop (h : Enduring P) (scene : Scene) (budget : Nat) (target : LoopTarget)
    (body : List Node) (length index : Nat) (items : List Value) :
    Steady P (Template.runLoop scene target (Template.execAll scene (.within scene budget) body)
      length index items) :=
  h.closed.runLoop (fun frame => h.inFrame frame (h.execAll scene budget body)) length items index

end Evaluation

end Template
end TransformChain
