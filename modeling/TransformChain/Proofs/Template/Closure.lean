import TransformChain.Proofs.Template.Relating

/-!
# Properties that evaluation keeps

A property of actions is closed when it holds of the actions that only look, and of one action
after the other wherever it holds of both.  Evaluation is made of such steps except where functions
and macros are called, variables set and frames opened, so a closed property that these have is one
of every template.  A property that holds of looking at some variables only is one of the
expressions that read no others.
-/

namespace TransformChain
namespace Template

open Template.Action

structure ClosedFor (reads : String → Bool) (Q : {α : Type} → Action α → Prop) : Prop where
  pure : ∀ {α : Type} (value : α), Q (Pure.pure value : Action α)
  fail : ∀ {α : Type} (error : Error), Q (Action.fail error : Action α)
  bind : ∀ {α β : Type} {a : Action α} {f : α → Action β}, Q a → (∀ value, Q (f value)) →
    Q (a >>= f)
  lookup : ∀ name, reads name = true → Q (Action.lookup name)
  succeeds : ∀ {α : Type} {a : Action α}, Q a → Q (Action.succeeds a)

abbrev Closed (Q : {α : Type} → Action α → Prop) : Prop :=
  ClosedFor (fun _ => true) Q

def Doubled (Q : {α : Type} → Action α → Prop) {α : Type} (a b : Action α) : Prop :=
  a = b ∧ Q a

section Rules

variable {reads : String → Bool} {Q : {α : Type} → Action α → Prop}

theorem ClosedFor.mono {fewer : String → Bool} (h : ClosedFor reads Q)
    (hreads : ∀ name, fewer name = true → reads name = true) : ClosedFor fewer Q :=
  { h with lookup := fun name hname => h.lookup name (hreads name hname) }

theorem Closed.closedFor (h : Closed Q) : ClosedFor reads Q :=
  h.mono fun _ _ => rfl

theorem ClosedFor.doubled (h : ClosedFor reads Q) : KeptFor reads true (Doubled Q) where
  pure value := ⟨rfl, h.pure value⟩
  fail error := ⟨rfl, h.fail error⟩
  bind := by
    rintro α β a _ f g ⟨rfl, ha⟩ hrest
    exact ⟨congrArg (a >>= ·) (funext fun value => (hrest value).left),
      h.bind ha fun value => (hrest value).right⟩
  lookup name hname := ⟨rfl, h.lookup name hname⟩
  succeeds := by
    rintro - α a _ ⟨rfl, ha⟩
    exact ⟨rfl, h.succeeds ha⟩

theorem ClosedFor.ofExcept (h : ClosedFor reads Q) (result : Except Error α) :
    Q (Action.ofExcept result) :=
  (h.doubled.ofExcept result).right

theorem ite_closed {condition : Prop} [Decidable condition] {a b : Action α} (ha : Q a)
    (hb : Q b) : Q (if condition then a else b) := by
  by_cases h : condition
  · rw [if_pos h]
    exact ha
  · rw [if_neg h]
    exact hb

theorem ClosedFor.operate (h : ClosedFor reads Q) (scene : Scene) (result : Operated Value) :
    Q (Template.operate scene result) :=
  h.ofExcept _

/-- Functions other than the one that renders a text do nothing but declare columns. -/
theorem ClosedFor.function (h : ClosedFor reads Q)
    (hdeclare : ∀ template column, Q (Action.declare template column)) (scene : Scene)
    (body : List Node → Action String) {name : String} (hname : name ≠ "render")
    (call : Function.Call) : Q (Function.call scene body name call) :=
  (h.doubled.function (fun template column => ⟨rfl, hdeclare template column⟩)
    (fun _ _ => h.doubled.ofExcept _) body body hname call).right

/-!
## Macros and rendered texts
-/

section Calls

variable {scene : Scene} {calls : Calls}

theorem bindParameters_closed (h : ClosedFor reads Q) (params : List MacroParameter)
    (args : List Value) (named : List (String × Value)) (frame : Frame)
    (hdefaults : ∀ e ∈ defaultsTaken params args named, Q (calls.value e)) :
    Q (bindParameters calls params args named frame) :=
  (bindParameters_kept h.doubled params args named frame
    fun e he => ⟨rfl, hdefaults e he⟩).right

theorem callMacro_closed (h : ClosedFor reads Q) {target : MacroDef} {call : Function.Call}
    (hdefaults : ∀ e ∈ defaultsTaken target.params call.positional (Keyed.ofPairs call.named),
      Q (calls.value e))
    (hbody : ∀ frame, Q (Action.nested scene.template.name
      (Action.isolated frame (calls.body target.body)))) :
    Q (callMacro scene calls target call) := by
  have hcall : Doubled Q (callMacro scene calls target call) (callMacro scene calls target call) :=
    callMacro_kept h.doubled (fun e he => ⟨rfl, hdefaults e he⟩) fun frame => ⟨rfl, hbody frame⟩
  exact hcall.right

theorem callByName_closed (h : ClosedFor reads Q)
    (hdeclare : ∀ template column, Q (Action.declare template column))
    (hrender : ∀ ns, Q (Action.nested scene.template.name (calls.body ns))) {name : String}
    (hcalled : ∀ target, scene.template.findMacro? name = some target →
      ∀ call, Q (callMacro scene calls target call))
    (call : Function.Call) : Q (callByName scene calls name call) :=
  (callByName_kept h.doubled (fun template column => ⟨rfl, hdeclare template column⟩)
    (fun _ _ => h.doubled.ofExcept _) (fun _ ns => ⟨rfl, hrender ns⟩)
    (fun target htarget call => ⟨rfl, hcalled target htarget call⟩) call).right

end Calls

/-!
## Expressions
-/

section Expressions

variable {scene : Scene} {calls : Calls} {check : Check}

def ClosedCalls (Q : {α : Type} → Action α → Prop) (scene : Scene) (calls : Calls)
    (check : Check) : Prop :=
  ∀ {name args keywords}, check.calls name args keywords = true →
    ∀ call, Q (callByName scene calls name call)

theorem ClosedCalls.doubled (h : ClosedCalls Q scene calls check) :
    KeptCalls (Doubled Q) scene.template scene.context scene.context calls calls check :=
  fun hcheck call => ⟨rfl, h hcheck call⟩

theorem filterOperand_closed (h : ClosedFor check.reads Q) (name : String) {operand : Expr}
    (hcheck : check.expr operand = true) (heval : Q (eval scene calls operand)) :
    Q (filterOperand scene calls name operand) :=
  (filterOperand_kept h.doubled name hcheck ⟨rfl, heval⟩).right

theorem callRest_closed (h : ClosedFor reads Q) {callee : Expr}
    (hmethod : ∀ base name, callee = .attr base name → Q (eval scene calls base))
    (hcall : ∀ name, callee = .var name → ∀ call, Q (callByName scene calls name call))
    (positional : List Value) (named : List (String × Value)) :
    Q (callRest scene calls callee positional named) :=
  (callRest_kept h.doubled (fun base name heq => ⟨rfl, hmethod base name heq⟩)
    (fun name heq call => ⟨rfl, hcall name heq call⟩) positional named).right

theorem binaryRest_closed (h : ClosedFor reads Q) (op : BinaryOp) (value : Value) {right : Expr}
    (hright : Q (eval scene calls right)) : Q (binaryRest scene calls op value right) :=
  (binaryRest_kept h.doubled op value ⟨rfl, hright⟩).right

theorem condRest_closed (h : ClosedFor reads Q) (value : Value) {yes : Expr} {no : Option Expr}
    (hyes : Q (eval scene calls yes)) (hno : ∀ e, no = some e → Q (eval scene calls e)) :
    Q (condRest scene calls value yes no) :=
  (condRest_kept h.doubled value ⟨rfl, hyes⟩ fun e he => ⟨rfl, hno e he⟩).right

theorem eval_closed (h : ClosedFor check.reads Q) (hcalls : ClosedCalls Q scene calls check)
    (e : Expr) (hcheck : check.expr e = true) : Q (eval scene calls e) :=
  (eval_kept h.doubled hcalls.doubled e hcheck nofun).right

theorem evalAll_closed (h : ClosedFor check.reads Q) (hcalls : ClosedCalls Q scene calls check)
    (es : List Expr) (hcheck : check.exprs es = true) : Q (evalAll scene calls es) :=
  (evalAll_kept h.doubled hcalls.doubled es hcheck nofun).right

theorem evalEntries_closed (h : ClosedFor check.reads Q) (hcalls : ClosedCalls Q scene calls check)
    (es : List (Expr × Expr)) (hcheck : check.entries es = true) :
    Q (evalEntries scene calls es) :=
  (evalEntries_kept h.doubled hcalls.doubled es hcheck nofun).right

theorem evalNamed_closed (h : ClosedFor check.reads Q) (hcalls : ClosedCalls Q scene calls check)
    (es : List (String × Expr)) (hcheck : check.named es = true) : Q (evalNamed scene calls es) :=
  (evalNamed_kept h.doubled hcalls.doubled es hcheck nofun).right

end Expressions

/-!
## Nodes
-/

section Nodes

variable {scene : Scene} {calls : Calls} {check : NodeCheck}

/-- Besides the calls, printing what passes, setting the variables that pass, and opening frames
keep the property. -/
structure ClosedNodes (Q : {α : Type} → Action α → Prop) (scene : Scene) (calls : Calls)
    (check : NodeCheck) : Prop where
  closed : Closed Q
  functions : ClosedCalls Q scene calls check.toCheck
  prints : ∀ {e}, check.prints e = true → Q (eval scene calls e)
  sets : ∀ {name}, check.sets name = true → ∀ value, Q (Action.assign name value)
  frame : ∀ (frame : Frame) {a : Action String}, Q a → Q (Action.inFrame frame a)

theorem ClosedNodes.doubled (h : ClosedNodes Q scene calls check) :
    KeptNodes true (Doubled Q) scene.template scene.context scene.context calls calls check where
  kept := h.closed.closedFor.doubled
  functions := ClosedCalls.doubled h.functions
  prints hprints := ⟨rfl, h.prints hprints⟩
  sets hsets value := ⟨rfl, h.sets hsets value⟩
  frame := by
    rintro frame a _ ⟨rfl, ha⟩
    exact ⟨rfl, h.frame frame ha⟩

theorem ClosedNodes.expr (h : ClosedNodes Q scene calls check) {e : Expr}
    (hcheck : check.expr e = true) : Q (eval scene calls e) :=
  eval_closed h.closed.closedFor h.functions e hcheck

theorem ClosedFor.runLoop (h : ClosedFor reads Q) {target : LoopTarget} {body : Action String}
    (hround : ∀ frame, Q (Action.inFrame frame body)) (length : Nat) (items : List Value)
    (index : Nat) : Q (runLoop scene target body length index items) := by
  have hloop : Doubled Q (Template.runLoop scene target body length index items)
      (Template.runLoop scene target body length index items) :=
    h.doubled.runLoop (fun frame => ⟨rfl, hround frame⟩) length items index
  exact hloop.right

theorem exec_closed (h : ClosedNodes Q scene calls check) (n : Node)
    (hcheck : check.node n = true) : Q (exec scene calls n) :=
  (exec_kept h.doubled n hcheck nofun).right

theorem execAll_closed (h : ClosedNodes Q scene calls check) (ns : List Node)
    (hcheck : check.nodes ns = true) : Q (execAll scene calls ns) :=
  (execAll_kept h.doubled ns hcheck nofun).right

theorem execBranches_closed (h : ClosedNodes Q scene calls check)
    (branches : List (Expr × List Node)) {otherwise : Action String} (hotherwise : Q otherwise)
    (hcheck : check.branches branches = true) :
    Q (execBranches scene calls branches otherwise) :=
  (execBranches_kept h.doubled branches ⟨rfl, hotherwise⟩ hcheck nofun).right

end Nodes

end Rules

end Template
end TransformChain
