import TransformChain.Transform.Manifest

/-!
# Pipelines

A pipeline names a base table and the transforms to apply to it.  It may hold further pipelines,
whose results its steps take as datasets.
-/

namespace TransformChain

structure StepPlan where
  transform : String
  name : Option String
  args : Keyed Argument
  outputColumns : Option Schema

inductive Pipeline where
  | of (source : String) (datasets : List (String × Pipeline)) (steps : List StepPlan)

namespace Pipeline

open Yaml

/-!
## Columns

A column of a step is a name, or a record or list of a name and a type.  These have to be texts
in themselves, not only scalars that could be taken as texts.
-/

mutual

/-- Whether a node is made of scalars, lists and mappings that an untyped reader understands. -/
def isUntyped : Node → Bool
  | .scalar tag plain text => (scalarArgument tag plain text).isSome
  | .sequence tag nodes => !isLocalTag tag && areUntyped nodes
  | .mapping tag nodes => !isLocalTag tag && areUntypedPairs nodes

def areUntyped : List Node → Bool
  | [] => true
  | node :: rest => isUntyped node && areUntyped rest

def areUntypedPairs : List (Node × Node) → Bool
  | [] => true
  | (key, node) :: rest => isUntyped key && isUntyped node && areUntypedPairs rest

end

def text : Decoder String :=
  argumentKey

def optionalText : Decoder (Option String)
  | .scalar tag plain s =>
      match scalarArgument tag plain s with
      | some .null => some none
      | some (.str s) => some (some s)
      | _ => none
  | _ => none

/-- The field that a key of a column record means, by name or by position; nothing for a key that
means none, which is ignored. -/
def columnField : Node → Option (Option String)
  | .scalar tag plain s =>
      match scalarArgument tag plain s with
      | some (.str "name") => some (some "name")
      | some (.str "type") => some (some "type")
      | some (.str _) => some none
      | some (.int 0) => some (some "name")
      | some (.int 1) => some (some "type")
      | some (.int i) => if 0 ≤ i then some none else none
      | _ => none
  | _ => none

def columnFields : List (Node × Node) → Option (List (String × Node))
  | [] => some []
  | (key, node) :: rest =>
      match columnField key, columnFields rest with
      | some (some field), some others => some ((field, node) :: others)
      | some none, some others => some others
      | _, _ => none

def columnRecord (nodes : List (Node × Node)) : Option Column := do
  let fields ← columnFields nodes
  if (fields.map Prod.fst).Nodup then
    let name ← Fields.required fields "name" text
    let type ← Fields.defaulted fields "type" none optionalText
    return ⟨name, type⟩
  else
    none

def untypedColumn : Decoder Column
  | .sequence _ [name] => (text name).map (fun name => ⟨name, none⟩)
  | .sequence _ [name, type] =>
      match text name, optionalText type with
      | some name, some type => some ⟨name, type⟩
      | _, _ => none
  | .mapping _ nodes => columnRecord nodes
  | node => (text node).map (fun name => ⟨name, none⟩)

def column : Decoder Column :=
  fun node => if isUntyped node then untypedColumn node else none

/-!
## Documents
-/

def step : Decoder StepPlan :=
  fun node => do
    let given ← fields ["transform", "alias", "args", "output_columns"] node
    return {
      transform := ← given.required "transform" string
      name := ← given.defaulted "alias" none (optional string)
      args := ← given.defaulted "args" [] arguments
      outputColumns := ← given.defaulted "output_columns" none (optional (list column)) }

/-- A pipeline that nests others at most as deep as the budget says. -/
def pipeline : Nat → Decoder Pipeline
  | 0 => fun _ => none
  | budget + 1 => fun node => do
      let given ← fields ["source", "datasets", "steps"] node
      let source ← given.required "source" string
      let datasets ← given.defaulted "datasets" [] (entries (pipeline budget))
      let steps ← given.defaulted "steps" [] (list step)
      return .of source datasets steps

def parse? (document : String) : Option Pipeline :=
  decode (pipeline nestingLimit) document

end Pipeline
end TransformChain
