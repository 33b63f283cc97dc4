import TransformChain.Schema
import TransformChain.Template.Tree

/-!
# Actions of the evaluator

What a template sees while it is rendered, the state that evaluation changes, and the actions on
it.  An action that fails keeps the changes it made, because a template can test whether an
expression fails and go on.  A spent nesting budget is not a failure and cannot be tested for.
-/

namespace TransformChain
namespace Template

structure SideDataset where
  label : String
  columns : Option Schema
deriving Repr, DecidableEq

structure Context where
  source : String
  sourceLabel : String
  input : Option Schema
  datasets : List (String × SideDataset)
  arguments : List (String × Value)

structure Scene where
  template : Template
  context : Context

/-- The variables of a loop, a macro call or the whole template. -/
abbrev Frame := List (String × Value)

/-- The frames of variables from the innermost out, the output columns declared so far, and how
deep calls are nested. -/
structure State where
  frames : List Frame
  declared : Schema
  depth : Nat

inductive Outcome (α : Type) where
  | done (value : α)
  | failed (error : Error)
  | spent

def Action (α : Type) := State → Outcome α × State

namespace Action

def done (value : α) : Action α :=
  fun state => (.done value, state)

def fail (error : Error) : Action α :=
  fun state => (.failed error, state)

def spent : Action α :=
  fun state => (.spent, state)

def andThen (a : Action α) (f : α → Action β) : Action β :=
  fun state =>
    match a state with
    | (.done value, next) => f value next
    | (.failed error, next) => (.failed error, next)
    | (.spent, next) => (.spent, next)

instance : Monad Action where
  pure := done
  bind := andThen

def ofExcept : Except Error α → Action α
  | .ok value => done value
  | .error e => fail e

/-- Whether the action succeeds; its changes stay. -/
def succeeds (a : Action α) : Action Bool :=
  fun state =>
    match a state with
    | (.done _, next) => (.done true, next)
    | (.failed _, next) => (.done false, next)
    | (.spent, next) => (.spent, next)

/-!
## Frames
-/

def find? (name : String) : List Frame → Option Value
  | [] => none
  | frame :: outer =>
      match Keyed.get? name frame with
      | some value => some value
      | none => find? name outer

def lookup (name : String) : Action (Option Value) :=
  fun state => (.done (find? name state.frames), state)

def assign (name : String) (value : Value) : Action Unit :=
  fun state =>
    match state.frames with
    | [] => (.done (), state)
    | frame :: outer => (.done (), { state with frames := Keyed.put name value frame :: outer })

def inFrame (frame : Frame) (a : Action α) : Action α :=
  fun state =>
    match a { state with frames := frame :: state.frames } with
    | (outcome, next) => (outcome, { next with frames := next.frames.drop 1 })

/-- Runs an action that sees the outermost frame and its own, and no frame in between. -/
def isolated (frame : Frame) (a : Action α) : Action α :=
  fun state =>
    let globals := state.frames.getLast?.getD []
    match a { state with frames := [frame, globals] } with
    | (outcome, next) => (outcome, { next with frames := state.frames })

/-!
## Nesting
-/

def depthLimit : Nat := 32

def nested (template : String) (a : Action α) : Action α :=
  fun state =>
    if depthLimit ≤ state.depth then
      (.failed (.templateEvaluation template .nestingTooDeep), state)
    else
      match a { state with depth := state.depth + 1 } with
      | (outcome, next) => (outcome, { next with depth := next.depth - 1 })

/-!
## Output columns
-/

def declare (template : String) (column : Column) : Action Unit :=
  fun state =>
    if state.declared.has column.name then
      (.failed (.duplicateColumn template column.name), state)
    else
      (.done (), { state with declared := state.declared ++ [column] })

def declareAll (template : String) : List Column → Action Unit
  | [] => done ()
  | column :: rest => do
      declare template column
      declareAll template rest

end Action
end Template
end TransformChain
