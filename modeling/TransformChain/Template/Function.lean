import TransformChain.Template.Action
import TransformChain.Template.Operation
import TransformChain.Text.Identifier

/-!
# Functions

The functions that templates call by name: questions about the schemas of the input and of side
datasets, declarations of output columns, and checks that end the rendering.
-/

namespace TransformChain
namespace Template

namespace Scene

def fault (scene : Scene) (fault : EvaluationFault) : Error :=
  .templateEvaluation scene.template.name fault

def operated (scene : Scene) : Operated α → Except Error α
  | .ok value => .ok value
  | .error fault => .error (scene.fault fault)

end Scene

namespace Function

structure Call where
  positional : List Value
  named : List (String × Value)

namespace Call

def argument (call : Call) (place : Nat) (name : String) : Option Value :=
  match call.positional[place]? with
  | some value => some value
  | none => Keyed.get? name call.named

end Call

def first (scene : Scene) (function : String) (call : Call) : Except Error Value :=
  match call.positional with
  | [] => .error (scene.fault (.argumentMissing function))
  | value :: _ => .ok value

/-!
## Datasets
-/

/-- A dataset that a template asks about: its input, or the one of a dataset argument. -/
inductive Asked where
  | input
  | side (relation : String)

/-- No value, null and the input's own relation text ask about the input. -/
def asked (scene : Scene) : Option Value → Except Error Asked
  | none => .ok .input
  | some .null => .ok .input
  | some (.str s) => .ok (if s = scene.context.source then .input else .side s)
  | some other => .error (scene.fault (.notDataset other.kind))

def sideDataset (scene : Scene) (relation : String) : Except Error SideDataset :=
  match Keyed.get? relation scene.context.datasets with
  | some side => .ok side
  | none => .error (scene.fault (.notDatasetArgument relation))

def schemaOf (scene : Scene) (value : Option Value) : Except Error (Schema × String) :=
  match asked scene value with
  | .error e => .error e
  | .ok .input =>
      match scene.context.input with
      | some schema => .ok (schema, scene.context.sourceLabel)
      | none => .error (.schemaUnavailable scene.context.sourceLabel .unlisted)
  | .ok (.side relation) =>
      match sideDataset scene relation with
      | .error e => .error e
      | .ok side =>
          match side.columns with
          | some schema => .ok (schema, side.label)
          | none => .error (.schemaUnavailable side.label .unlisted)

def labelOf (scene : Scene) (value : Option Value) : Except Error String :=
  match asked scene value with
  | .error e => .error e
  | .ok .input => .ok scene.context.sourceLabel
  | .ok (.side relation) =>
      match sideDataset scene relation with
      | .ok side => .ok side.label
      | .error e => .error e

/-!
## Columns
-/

def columnMap (schema : Schema) : Value :=
  .map (Keyed.ofPairs (schema.map fun column =>
    (column.name,
      match column.type with
      | some type => .str type
      | none => .null)))

def columnList (names : List String) : Value :=
  .list (names.map Value.str)

def namesIn : Value → List String
  | .null => []
  | .list items => items.map Value.display
  | .map entries => entries.map Prod.fst
  | other => [other.display]

def typeIn : Option Value → Option String
  | none => none
  | some .null => none
  | some value => some value.display

def columnsIn : Value → Except EvaluationFault Schema
  | .map entries => .ok (entries.map fun entry => ⟨entry.1, typeIn (some entry.2)⟩)
  | .list items => .ok (items.map fun item => ⟨item.display, none⟩)
  | .null => .ok []
  | other => .error (.notOutputColumns other.kind)

def exceptNames (schema : Schema) (excluded : List String) : List String :=
  schema.names.filter (fun name => !excluded.contains name)

def missing? (schema : Schema) (names : List String) : Option String :=
  names.find? (fun name => !schema.has name)

def isSupplied (context : Context) (name : String) : Bool :=
  match Keyed.get? name context.arguments with
  | some value => !value.isNull
  | none => false

/-!
## Calls
-/

def checkExclusive (scene : Scene) (call : Call) : Except Error Value :=
  match call.positional with
  | .str a :: .str b :: _ =>
      if isSupplied scene.context a && isSupplied scene.context b then
        .error (.mutuallyExclusiveArguments scene.template.name a b)
      else
        .ok .null
  | _ => .error (scene.fault .exclusiveNames)

def checkColumns (scene : Scene) (call : Call) : Except Error Value := do
  let wanted ← first scene "require_columns" call
  let (schema, label) ← schemaOf scene (call.argument 1 "dataset")
  match missing? schema (namesIn wanted) with
  | some column => .error (.invalidColumnReference scene.template.name column label)
  | none => .ok .null

def pure (scene : Scene) (name : String) (call : Call) : Except Error Value :=
  match name with
  | "cleanse_name" => do
      let value ← first scene name call
      return .str (Text.cleanse value.display)
  | "quote" => do
      let value ← first scene name call
      return .str (Literal.quote value)
  | "raise_exception" =>
      .error (.templateAborted scene.template.name (Operation.firstText call.positional))
  | "mutually_exclusive" => checkExclusive scene call
  | "get_columns" => do
      let (schema, _) ← schemaOf scene (call.argument 0 "dataset")
      return columnMap schema
  | "columns" => do
      let (schema, _) ← schemaOf scene (call.argument 0 "dataset")
      return columnList schema.names
  | "columns_except" => do
      let excluded ← first scene name call
      let (schema, _) ← schemaOf scene none
      return columnList (exceptNames schema (namesIn excluded))
  | "require_columns" => checkColumns scene call
  | "dataset_name" => do
      let label ← labelOf scene call.positional.head?
      return .str (String.ofList (Text.afterLast '.' label.toList))
  | other => .error (scene.fault (.undefined other))

def output (scene : Scene) (call : Call) : Action Value := do
  let value ← Action.ofExcept (first scene "output" call)
  Action.declare scene.template.name ⟨value.display, typeIn (call.argument 1 "type")⟩
  return .null

def outputAll (scene : Scene) (call : Call) : Action Value := do
  let value ← Action.ofExcept (first scene "output_all" call)
  let columns ← Action.ofExcept (scene.operated (columnsIn value))
  Action.declareAll scene.template.name columns
  return .null

def renderText (scene : Scene) (body : List Node → Action String) (call : Call) : Action Value := do
  let text ← Action.ofExcept (first scene "render" call)
  let parsed ← Action.ofExcept (Body.parse scene.template.name text.display)
  if parsed.macros.isEmpty then
    let result ← Action.nested scene.template.name (body parsed.nodes)
    return .str result
  else
    Action.fail (scene.fault .macroInText)

/-- Calls a function by name; `body` renders the nodes of a text. -/
def call (scene : Scene) (body : List Node → Action String) (name : String) (call : Call) :
    Action Value :=
  match name with
  | "output" => output scene call
  | "output_all" => outputAll scene call
  | "render" => renderText scene body call
  | name => Action.ofExcept (pure scene name call)

end Function
end Template
end TransformChain
