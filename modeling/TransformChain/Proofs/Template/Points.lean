import Mathlib.Logic.Relation
import TransformChain.Proofs.Template.Yields

/-!
# Points of a rendering

Everything that is evaluated on the way through a template: a piece of work, the state in which it
is begun, and how deep calls may still nest.  A piece of work leads to its parts, each begun in the
state that the parts before it left behind; what comes after a failure is never begun.
-/

namespace TransformChain
namespace Template

open Template.Action

inductive Work where
  | expr (e : Expr)
  | exprs (es : List Expr)
  | entries (es : List (Expr × Expr))
  | named (es : List (String × Expr))
  | call (name : String) (call : Function.Call)
  | params (params : List MacroParameter) (args : List Value) (named : List (String × Value))
      (frame : Frame)
  | node (n : Node)
  | nodes (ns : List Node)
  | branches (branches : List (Expr × List Node)) (otherwise : List Node)
  | rounds (target : LoopTarget) (body : List Node) (length index : Nat) (items : List Value)

structure Point where
  budget : Nat
  work : Work
  state : State

/-!
## Operands and operators
-/

theorem Action.bind_done (a : Action α) : (a >>= fun value => pure value) = a := by
  funext state
  change andThen a done state = a state
  unfold andThen
  cases h : a state with
  | mk outcome next => cases outcome <;> rfl

theorem Action.bind_bind (a : Action α) (f : α → Action β) (g : β → Action γ) :
    (a >>= f) >>= g = a >>= fun value => f value >>= g := by
  funext state
  change andThen (andThen a f) g state = andThen a (fun value => andThen (f value) g) state
  unfold andThen
  cases h : a state with
  | mk outcome next => cases outcome <;> rfl

/-- The operand of a filter; `default` takes a variable that is not there for null. -/
def filterOperand (scene : Scene) (calls : Calls) (name : String) : Expr → Action Value
  | .var subject =>
      if name = "default" then do
        let found ← Action.lookup subject
        pure (found.getD .null)
      else
        evalVar scene subject
  | operand => eval scene calls operand

theorem eval_filter (scene : Scene) (calls : Calls) (operand : Expr) (name : String)
    (args : List Expr) :
    eval scene calls (.filter operand name args) = (do
      let value ← filterOperand scene calls name operand
      let values ← evalAll scene calls args
      operate scene (Operation.filter name value values)) := by
  cases operand <;> simp only [eval, filterOperand]
  split <;> simp only [Action.bind_bind]

def testOutcome (scene : Scene) (calls : Calls) (name : String) : Expr → Action Bool
  | .var subject =>
      if isDefinedTest name then do
        let found ← Action.lookup subject
        pure (found.isSome == (name == "defined"))
      else do
        let value ← evalVar scene subject
        testValue scene name value
  | operand =>
      if isDefinedTest name then do
        let found ← Action.succeeds (eval scene calls operand)
        pure (found == (name == "defined"))
      else do
        let value ← eval scene calls operand
        testValue scene name value

theorem eval_test (scene : Scene) (calls : Calls) (operand : Expr) (name : String)
    (negated : Bool) :
    eval scene calls (.test operand name negated) = (do
      let passed ← testOutcome scene calls name operand
      return .bool (passed != negated)) := by
  cases operand <;> simp only [eval, testOutcome]
  all_goals split <;> simp only [Action.bind_bind]

section NoVariable

variable {scene : Scene} {calls : Calls} {name : String} {operand : Expr}
  (hoperand : ∀ subject, operand ≠ .var subject)

include hoperand

theorem filterOperand_of_ne_var :
    filterOperand scene calls name operand = eval scene calls operand := by
  cases operand with
  | var subject => exact absurd rfl (hoperand subject)
  | _ => rfl

theorem testOutcome_of_ne_var (hname : isDefinedTest name = false) :
    testOutcome scene calls name operand = (do
      let value ← eval scene calls operand
      testValue scene name value) := by
  cases operand with
  | var subject => exact absurd rfl (hoperand subject)
  | _ => simp only [testOutcome, hname, Bool.false_eq_true, if_false]

theorem testOutcome_defined (hname : isDefinedTest name = true) :
    testOutcome scene calls name operand = (do
      let found ← Action.succeeds (eval scene calls operand)
      pure (found == (name == "defined"))) := by
  cases operand with
  | var subject => exact absurd rfl (hoperand subject)
  | _ => simp only [testOutcome, hname, if_true]

end NoVariable

def BinaryOp.goesOn (op : BinaryOp) (left : Value) : Bool :=
  match op with
  | .and => left.holds
  | .or => !left.holds
  | _ => true

def binaryRest (scene : Scene) (calls : Calls) (op : BinaryOp) (left : Value) (right : Expr) :
    Action Value :=
  if op.goesOn left then do
    let value ← eval scene calls right
    if op = .and ∨ op = .or then pure value else operate scene (Operation.binary op left value)
  else
    pure left

theorem eval_binary (scene : Scene) (calls : Calls) (op : BinaryOp) (left right : Expr) :
    eval scene calls (.binary op left right) = (do
      let value ← eval scene calls left
      binaryRest scene calls op value right) := by
  cases op
  case and =>
    simp only [eval, binaryRest, BinaryOp.goesOn, true_or, if_true, Action.bind_done]
  case or =>
    simp only [eval, binaryRest, BinaryOp.goesOn, or_true, if_true, Action.bind_done]
    congr 1
    funext value
    cases value.holds <;> rfl
  all_goals
    simp only [eval, binaryRest, BinaryOp.goesOn, if_true]
    rfl

def callRest (scene : Scene) (calls : Calls) (callee : Expr) (positional : List Value)
    (named : List (String × Value)) : Action Value :=
  match callee with
  | .attr base name => do
      let receiver ← eval scene calls base
      operate scene (Operation.method receiver name positional)
  | .var name => callByName scene calls name ⟨positional, named⟩
  | _ => Action.fail (scene.fault .notCallable)

theorem eval_call (scene : Scene) (calls : Calls) (callee : Expr) (args : List Expr)
    (keywords : List (String × Expr)) :
    eval scene calls (.call callee args keywords) = (do
      let positional ← evalAll scene calls args
      let named ← evalNamed scene calls keywords
      callRest scene calls callee positional named) := by
  cases callee <;> simp only [eval, callRest]

theorem callByName_of_found {scene : Scene} {calls : Calls} {name : String} {target : MacroDef}
    {call : Function.Call} (hfind : scene.template.findMacro? name = some target) :
    callByName scene calls name call = callMacro scene calls target call := by
  unfold callByName
  rw [hfind]

def condRest (scene : Scene) (calls : Calls) (condition : Value) (yes : Expr) :
    Option Expr → Action Value
  | none => if condition.holds then eval scene calls yes else pure .null
  | some no => if condition.holds then eval scene calls yes else eval scene calls no

theorem eval_cond (scene : Scene) (calls : Calls) (condition yes : Expr) (no : Option Expr) :
    eval scene calls (.cond condition yes no) = (do
      let value ← eval scene calls condition
      condRest scene calls value yes no) := by
  cases no <;> simp only [eval, condRest]

theorem condRest_of_holds {scene : Scene} {calls : Calls} {condition : Value} {yes : Expr}
    {no : Option Expr} (h : condition.holds = true) :
    condRest scene calls condition yes no = eval scene calls yes := by
  cases no <;> simp only [condRest, h, if_true]

/-!
## Parts
-/

/-- A point leads to another one directly. -/
inductive Part (scene : Scene) : Point → Point → Prop where
  | list : Part scene ⟨b, .expr (.list items), s⟩ ⟨b, .exprs items, s⟩
  | dict : Part scene ⟨b, .expr (.dict entries), s⟩ ⟨b, .entries entries, s⟩
  | attr : Part scene ⟨b, .expr (.attr base field), s⟩ ⟨b, .expr base, s⟩
  | indexBase : Part scene ⟨b, .expr (.index base key), s⟩ ⟨b, .expr base, s⟩
  | indexKey : Yields (eval scene (.within scene b) base) s v t →
      Part scene ⟨b, .expr (.index base key), s⟩ ⟨b, .expr key, t⟩
  | callArgs : Part scene ⟨b, .expr (.call callee args keywords), s⟩ ⟨b, .exprs args, s⟩
  | callNamed : Yields (evalAll scene (.within scene b) args) s vs t →
      Part scene ⟨b, .expr (.call callee args keywords), s⟩ ⟨b, .named keywords, t⟩
  | callReceiver : Yields (evalAll scene (.within scene b) args) s vs t →
      Yields (evalNamed scene (.within scene b) keywords) t ns u →
      Part scene ⟨b, .expr (.call (.attr base method) args keywords), s⟩ ⟨b, .expr base, u⟩
  | callFunction : Yields (evalAll scene (.within scene b) args) s vs t →
      Yields (evalNamed scene (.within scene b) keywords) t ns u →
      Part scene ⟨b, .expr (.call (.var function) args keywords), s⟩ ⟨b, .call function ⟨vs, ns⟩, u⟩
  | filterOperand : (∀ subject, operand ≠ .var subject) →
      Part scene ⟨b, .expr (.filter operand filter args), s⟩ ⟨b, .expr operand, s⟩
  | filterArgs : Yields (filterOperand scene (.within scene b) filter operand) s v t →
      Part scene ⟨b, .expr (.filter operand filter args), s⟩ ⟨b, .exprs args, t⟩
  | testOperand : (∀ subject, operand ≠ .var subject) →
      Part scene ⟨b, .expr (.test operand test negated), s⟩ ⟨b, .expr operand, s⟩
  | not : Part scene ⟨b, .expr (.not operand), s⟩ ⟨b, .expr operand, s⟩
  | neg : Part scene ⟨b, .expr (.neg operand), s⟩ ⟨b, .expr operand, s⟩
  | binaryLeft : Part scene ⟨b, .expr (.binary op left right), s⟩ ⟨b, .expr left, s⟩
  | binaryRight : Yields (eval scene (.within scene b) left) s v t → op.goesOn v = true →
      Part scene ⟨b, .expr (.binary op left right), s⟩ ⟨b, .expr right, t⟩
  | condition : Part scene ⟨b, .expr (.cond condition yes no), s⟩ ⟨b, .expr condition, s⟩
  | condYes : Yields (eval scene (.within scene b) condition) s v t → v.holds = true →
      Part scene ⟨b, .expr (.cond condition yes no), s⟩ ⟨b, .expr yes, t⟩
  | condNo : Yields (eval scene (.within scene b) condition) s v t → v.holds = false →
      Part scene ⟨b, .expr (.cond condition yes (some no)), s⟩ ⟨b, .expr no, t⟩
  | exprsFirst : Part scene ⟨b, .exprs (e :: es), s⟩ ⟨b, .expr e, s⟩
  | exprsRest : Yields (eval scene (.within scene b) e) s v t →
      Part scene ⟨b, .exprs (e :: es), s⟩ ⟨b, .exprs es, t⟩
  | entriesKey : Part scene ⟨b, .entries ((key, e) :: es), s⟩ ⟨b, .expr key, s⟩
  | entriesValue : Yields (eval scene (.within scene b) key) s v t →
      Part scene ⟨b, .entries ((key, e) :: es), s⟩ ⟨b, .expr e, t⟩
  | entriesRest : Yields (eval scene (.within scene b) key) s v t →
      Yields (eval scene (.within scene b) e) t w u →
      Part scene ⟨b, .entries ((key, e) :: es), s⟩ ⟨b, .entries es, u⟩
  | namedFirst : Part scene ⟨b, .named ((keyword, e) :: es), s⟩ ⟨b, .expr e, s⟩
  | namedRest : Yields (eval scene (.within scene b) e) s v t →
      Part scene ⟨b, .named ((keyword, e) :: es), s⟩ ⟨b, .named es, t⟩
  | callParams : scene.template.findMacro? function = some target →
      call.positional.length ≤ target.params.length →
      Part scene ⟨b, .call function call, s⟩
        ⟨b, .params target.params call.positional (Keyed.ofPairs call.named) [], s⟩
  | callBody : scene.template.findMacro? function = some target →
      call.positional.length ≤ target.params.length →
      Yields (bindParameters (.within scene (b + 1)) target.params call.positional
        (Keyed.ofPairs call.named) []) s (frame, []) t →
      t.depth < depthLimit →
      Part scene ⟨b + 1, .call function call, s⟩
        ⟨b, .nodes target.body,
          ⟨[frame, t.frames.getLast?.getD []], t.declared, t.depth + 1⟩⟩
  | callText : scene.template.findMacro? "render" = none →
      Function.first scene "render" call = .ok text →
      Body.parse scene.template.name text.display = .ok ⟨nodes, []⟩ →
      s.depth < depthLimit →
      Part scene ⟨b + 1, .call "render" call, s⟩
        ⟨b, .nodes nodes, { s with depth := s.depth + 1 }⟩
  | paramsGiven :
      Part scene ⟨b, .params ((param, fallback) :: params) (v :: args) named frame, s⟩
        ⟨b, .params params args named (Keyed.put param v frame), s⟩
  | paramsNamed : Keyed.get? param named = some v →
      Part scene ⟨b, .params ((param, fallback) :: params) [] named frame, s⟩
        ⟨b, .params params [] (Keyed.erase param named) (Keyed.put param v frame), s⟩
  | paramsDefault : Keyed.get? param named = none →
      Part scene ⟨b + 1, .params ((param, some e) :: params) [] named frame, s⟩ ⟨b, .expr e, s⟩
  | paramsDefaulted : Keyed.get? param named = none →
      Yields ((Calls.within scene b).value e) s v t →
      Part scene ⟨b, .params ((param, some e) :: params) [] named frame, s⟩
        ⟨b, .params params [] named (Keyed.put param v frame), t⟩
  | paramsNull : Keyed.get? param named = none →
      Part scene ⟨b, .params ((param, none) :: params) [] named frame, s⟩
        ⟨b, .params params [] named (Keyed.put param .null frame), s⟩
  | output : Part scene ⟨b, .node (.output e), s⟩ ⟨b, .expr e, s⟩
  | branch : Part scene ⟨b, .node (.branch branches otherwise), s⟩
      ⟨b, .branches branches otherwise, s⟩
  | loopItems : Part scene ⟨b, .node (.loop target iterable block empty), s⟩ ⟨b, .expr iterable, s⟩
  | loopEmpty : Yields (eval scene (.within scene b) iterable) s v t →
      Operation.items v = .ok [] →
      Part scene ⟨b, .node (.loop target iterable block empty), s⟩ ⟨b, .nodes empty, t⟩
  | loopRounds : Yields (eval scene (.within scene b) iterable) s v t →
      Operation.items v = .ok items → items ≠ [] →
      Part scene ⟨b, .node (.loop target iterable block empty), s⟩
        ⟨b, .rounds target block items.length 0 items, t⟩
  | assign : Part scene ⟨b, .node (.assign subject e), s⟩ ⟨b, .expr e, s⟩
  | run : Part scene ⟨b, .node (.run e), s⟩ ⟨b, .expr e, s⟩
  | nodesFirst : Part scene ⟨b, .nodes (n :: ns), s⟩ ⟨b, .node n, s⟩
  | nodesRest : Yields (exec scene (.within scene b) n) s text t →
      Part scene ⟨b, .nodes (n :: ns), s⟩ ⟨b, .nodes ns, t⟩
  | otherwise : Part scene ⟨b, .branches [] otherwise, s⟩ ⟨b, .nodes otherwise, s⟩
  | branchCondition : Part scene ⟨b, .branches ((e, block) :: rest) otherwise, s⟩ ⟨b, .expr e, s⟩
  | branchTaken : Yields (eval scene (.within scene b) e) s v t → v.holds = true →
      Part scene ⟨b, .branches ((e, block) :: rest) otherwise, s⟩ ⟨b, .nodes block, t⟩
  | branchSkipped : Yields (eval scene (.within scene b) e) s v t → v.holds = false →
      Part scene ⟨b, .branches ((e, block) :: rest) otherwise, s⟩ ⟨b, .branches rest otherwise, t⟩
  | round : target.bind item = .ok bindings →
      Part scene ⟨b, .rounds target block length index (item :: items), s⟩
        ⟨b, .nodes block,
          { s with frames := Keyed.put "loop" (loopInfo index length) bindings :: s.frames }⟩
  | roundsRest : target.bind item = .ok bindings →
      Yields (inFrame (Keyed.put "loop" (loopInfo index length) bindings)
        (execAll scene (.within scene b) block)) s text t →
      Part scene ⟨b, .rounds target block length index (item :: items), s⟩
        ⟨b, .rounds target block length (index + 1) items, t⟩

def Reaches (scene : Scene) : Point → Point → Prop :=
  Relation.ReflTransGen (Part scene)

def Scene.point (scene : Scene) (budget : Nat) : Point :=
  ⟨budget, .nodes scene.template.body.nodes, scene.start⟩

/-!
## Datasets that are asked about
-/

def datasetArgument (function : String) (call : Function.Call) : Option Value :=
  match function with
  | "get_columns" | "columns" => call.argument 0 "dataset"
  | "require_columns" => call.argument 1 "dataset"
  | "dataset_name" => call.positional.head?
  | _ => none

/-- From this point on the text is passed as a dataset to one of the functions that take one. -/
def Passes (scene : Scene) (p : Point) (text : String) : Prop :=
  ∃ budget name call state,
    Reaches scene p ⟨budget, .call name call, state⟩ ∧
    scene.template.findMacro? name = none ∧
    datasetArgument name call = some (.str text)

theorem Passes.of_part {scene : Scene} {p q : Point} {text : String} (hpart : Part scene p q)
    (h : Passes scene q text) : Passes scene p text := by
  rcases h with ⟨budget, name, call, state, hreaches, hfree, hargument⟩
  exact ⟨budget, name, call, state, .head hpart hreaches, hfree, hargument⟩

end Template
end TransformChain
