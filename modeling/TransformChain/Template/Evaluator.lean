import TransformChain.Template.Function

/-!
# Evaluation

Expressions and nodes are evaluated by recursion on their structure.  Macro calls and rendered
texts lead to other trees; `Calls` says how those are evaluated, and `Calls.within` allows them to
nest as deep as its budget.
-/

namespace TransformChain
namespace Template

/-- How the trees that calls lead to are evaluated. -/
structure Calls where
  value : Expr → Action Value
  body : List Node → Action String

namespace Calls

def spent : Calls :=
  ⟨fun _ => Action.spent, fun _ => Action.spent⟩

end Calls

/-!
## Macro calls
-/

/-- The value of a macro's parameter: the next positional argument, or else the named one, or else
the default, evaluated where the macro is called, or else null. -/
def bindParameters (calls : Calls) :
    List MacroParameter → List Value → List (String × Value) → Frame →
      Action (Frame × List (String × Value))
  | [], _, named, frame => return (frame, named)
  | (name, _) :: params, value :: args, named, frame =>
      bindParameters calls params args named (Keyed.put name value frame)
  | (name, default) :: params, [], named, frame =>
      match Keyed.get? name named, default with
      | some value, _ =>
          bindParameters calls params [] (Keyed.erase name named) (Keyed.put name value frame)
      | none, some expr => do
          let value ← calls.value expr
          bindParameters calls params [] named (Keyed.put name value frame)
      | none, none => bindParameters calls params [] named (Keyed.put name .null frame)

/-- A macro's body sees the arguments of the template and its own parameters. -/
def callMacro (scene : Scene) (calls : Calls) (target : MacroDef) (call : Function.Call) :
    Action Value := do
  if target.params.length < call.positional.length then
    Action.fail (scene.fault
      (.tooManyArguments target.name target.params.length call.positional.length))
  else
    let (frame, unused) ←
      bindParameters calls target.params call.positional (Keyed.ofPairs call.named) []
    match unused with
    | (name, _) :: _ => Action.fail (scene.fault (.unknownMacroParameter target.name name))
    | [] =>
        let text ← Action.nested scene.template.name
          (Action.isolated frame (calls.body target.body))
        return .str text

/-- A macro of the template hides a function of the same name. -/
def callByName (scene : Scene) (calls : Calls) (name : String) (call : Function.Call) :
    Action Value :=
  match scene.template.findMacro? name with
  | some target => callMacro scene calls target call
  | none => Function.call scene calls.body name call

/-!
## Expressions
-/

def evalVar (scene : Scene) (name : String) : Action Value := do
  match ← Action.lookup name with
  | some value => return value
  | none => Action.fail (scene.fault (.undefined name))

def operate (scene : Scene) (result : Operated Value) : Action Value :=
  Action.ofExcept (scene.operated result)

def testValue (scene : Scene) (name : String) (value : Value) : Action Bool :=
  Action.ofExcept (scene.operated (Operation.test name value))

def isDefinedTest (name : String) : Bool :=
  name == "defined" || name == "undefined"

mutual

def eval (scene : Scene) (calls : Calls) : Expr → Action Value
  | .lit value => return value
  | .var name => evalVar scene name
  | .list items => do
      let values ← evalAll scene calls items
      return .list values
  | .dict entries => do
      let pairs ← evalEntries scene calls entries
      return .map (Keyed.ofPairs pairs)
  | .attr base name => do
      let value ← eval scene calls base
      operate scene (Operation.attr name value)
  | .index base key => do
      let value ← eval scene calls base
      let place ← eval scene calls key
      operate scene (Operation.index value place)
  | .call (.attr base name) args keywords => do
      let positional ← evalAll scene calls args
      let _ ← evalNamed scene calls keywords
      let receiver ← eval scene calls base
      operate scene (Operation.method receiver name positional)
  | .call (.var name) args keywords => do
      let positional ← evalAll scene calls args
      let named ← evalNamed scene calls keywords
      callByName scene calls name ⟨positional, named⟩
  | .call _ args keywords => do
      let _ ← evalAll scene calls args
      let _ ← evalNamed scene calls keywords
      Action.fail (scene.fault .notCallable)
  | .filter (.var subject) name args => do
      let value ←
        if name = "default" then do
          let found ← Action.lookup subject
          pure (found.getD .null)
        else
          evalVar scene subject
      let values ← evalAll scene calls args
      operate scene (Operation.filter name value values)
  | .filter operand name args => do
      let value ← eval scene calls operand
      let values ← evalAll scene calls args
      operate scene (Operation.filter name value values)
  | .test (.var subject) name negated => do
      let passed ←
        if isDefinedTest name then do
          let found ← Action.lookup subject
          pure (found.isSome == (name == "defined"))
        else do
          let value ← evalVar scene subject
          testValue scene name value
      return .bool (passed != negated)
  | .test operand name negated => do
      let passed ←
        if isDefinedTest name then do
          let found ← Action.succeeds (eval scene calls operand)
          pure (found == (name == "defined"))
        else do
          let value ← eval scene calls operand
          testValue scene name value
      return .bool (passed != negated)
  | .not operand => do
      let value ← eval scene calls operand
      return .bool (!value.holds)
  | .neg operand => do
      let value ← eval scene calls operand
      operate scene (Operation.negate value)
  | .binary .and left right => do
      let value ← eval scene calls left
      if value.holds then eval scene calls right else return value
  | .binary .or left right => do
      let value ← eval scene calls left
      if value.holds then return value else eval scene calls right
  | .binary op left right => do
      let a ← eval scene calls left
      let b ← eval scene calls right
      operate scene (Operation.binary op a b)
  | .cond condition yes none => do
      let value ← eval scene calls condition
      if value.holds then eval scene calls yes else return .null
  | .cond condition yes (some no) => do
      let value ← eval scene calls condition
      if value.holds then eval scene calls yes else eval scene calls no

def evalAll (scene : Scene) (calls : Calls) : List Expr → Action (List Value)
  | [] => return []
  | expr :: rest => do
      let value ← eval scene calls expr
      let values ← evalAll scene calls rest
      return value :: values

def evalEntries (scene : Scene) (calls : Calls) :
    List (Expr × Expr) → Action (List (String × Value))
  | [] => return []
  | (key, expr) :: rest => do
      let name ← eval scene calls key
      let value ← eval scene calls expr
      let pairs ← evalEntries scene calls rest
      return (name.display, value) :: pairs

def evalNamed (scene : Scene) (calls : Calls) :
    List (String × Expr) → Action (List (String × Value))
  | [] => return []
  | (name, expr) :: rest => do
      let value ← eval scene calls expr
      let pairs ← evalNamed scene calls rest
      return (name, value) :: pairs

end

/-!
## Loops
-/

def loopInfo (index length : Nat) : Value :=
  .map [
    ("index", .int (Int64.ofNat (index + 1))),
    ("index0", .int (Int64.ofNat index)),
    ("first", .bool (index == 0)),
    ("last", .bool (index + 1 == length)),
    ("length", .int (Int64.ofNat length))]

def LoopTarget.bind (target : LoopTarget) (item : Value) : Operated Frame :=
  match target, item with
  | .single name, item => .ok [(name, item)]
  | .pair first second, .list [a, b] => .ok (Keyed.put second b [(first, a)])
  | .pair first second, other => .error (.notUnpackable other.kind first second)

def runLoop (scene : Scene) (target : LoopTarget) (body : Action String) (length : Nat) :
    Nat → List Value → Action String
  | _, [] => return ""
  | index, item :: rest => do
      let bindings ← Action.ofExcept (scene.operated (target.bind item))
      let frame := Keyed.put "loop" (loopInfo index length) bindings
      let text ← Action.inFrame frame body
      let more ← runLoop scene target body length (index + 1) rest
      return text ++ more

/-!
## Nodes
-/

mutual

def exec (scene : Scene) (calls : Calls) : Node → Action String
  | .text content => return content
  | .output expr => do
      let value ← eval scene calls expr
      return value.display
  | .branch branches otherwise => execBranches scene calls branches (execAll scene calls otherwise)
  | .loop target iterable body empty => do
      let value ← eval scene calls iterable
      let items ← Action.ofExcept (scene.operated (Operation.items value))
      if items.isEmpty then
        execAll scene calls empty
      else
        runLoop scene target (execAll scene calls body) items.length 0 items
  | .assign name expr => do
      let value ← eval scene calls expr
      Action.assign name value
      return ""
  | .run expr => do
      let _ ← eval scene calls expr
      return ""

def execAll (scene : Scene) (calls : Calls) : List Node → Action String
  | [] => return ""
  | node :: rest => do
      let text ← exec scene calls node
      let more ← execAll scene calls rest
      return text ++ more

def execBranches (scene : Scene) (calls : Calls) :
    List (Expr × List Node) → Action String → Action String
  | [], otherwise => otherwise
  | (condition, body) :: rest, otherwise => do
      let value ← eval scene calls condition
      if value.holds then
        execAll scene calls body
      else
        execBranches scene calls rest otherwise

end

/-- Evaluation in which calls nest at most as deep as the budget. -/
def Calls.within (scene : Scene) : Nat → Calls
  | 0 => Calls.spent
  | budget + 1 =>
      ⟨eval scene (Calls.within scene budget), execAll scene (Calls.within scene budget)⟩

end Template
end TransformChain
