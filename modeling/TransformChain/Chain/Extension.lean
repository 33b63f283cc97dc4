import TransformChain.Chain.Basic

/-!
# Extending chains

Applies a transform to a chain: binds its arguments, finds out the columns it can ask about, names
the step and writes its SQL.
-/

namespace TransformChain

structure StepOptions where
  name : Option String
  outputColumns : Option Schema

structure Workshop where
  registry : Registry
  ns : Option Namespace
  namePrefix : String

namespace Chain

/-!
## Step names
-/

def numbered (base : String) (n : Nat) : String :=
  base ++ "_" ++ Decimal.digitText n

def freeNumbered (chain : Chain) (base : String) : Nat → Nat → String
  | 0, n => numbered base n
  | budget + 1, n =>
      if chain.hasStepNamed (numbered base n) then freeNumbered chain base budget (n + 1)
      else numbered base n

/-- The name itself if no step has it, or else the first free one of its numbered forms.  Only as
many of them can be taken as there are steps. -/
def freeName (chain : Chain) (base : String) : String :=
  if chain.hasStepNamed base then freeNumbered chain base chain.depth 2 else base

def generatedBase (namePrefix : String) (depth : Nat) (transform : String) : String :=
  Text.cleanse (namePrefix ++ "_" ++ Decimal.digitText depth ++ "_" ++ transform)

/-- The name of the next step: the requested one, which must be a free identifier, or a generated
one. -/
def nextName (chain : Chain) (namePrefix transform : String) :
    Option String → Except Error String
  | some requested =>
      if !Text.isIdentifier requested then .error (.invalidAlias requested)
      else if chain.hasStepNamed requested then .error (.aliasConflict requested)
      else .ok requested
  | none => .ok (chain.freeName (generatedBase namePrefix (chain.depth + 1) transform))

/-!
## Columns
-/

def inputColumns : Chain → Asking (Option Schema)
  | root dataset => Resolver.columnsIfKnown dataset
  | step _ _ s => pure s.output

def sideDatasets : List (String × Dataset) → Asking (List (String × Template.SideDataset))
  | [] => pure []
  | (_, dataset) :: rest => do
      let columns ← Resolver.columnsIfKnown dataset
      let others ← sideDatasets rest
      return (dataset.relation, ⟨dataset.label, columns⟩) :: others

/-!
## Steps
-/

def apply (chain : Chain) (name : String) (unwritten : Step) (outputColumns : Option Schema) :
    Except Error Chain :=
  match unwritten.renderFrom chain.relation chain.name with
  | .error e => .error e
  | .ok rendered =>
      let output :=
        match outputColumns with
        | some columns => some columns
        | none => rendered.output
      .ok (.step chain name { unwritten with fragment := rendered.sql, output := output })

def extend (workshop : Workshop) (chain : Chain) (transformName : String)
    (args : Keyed Argument) (options : StepOptions) : Asking Chain := do
  let transform ← workshop.registry.lookup transformName
  let input ← chain.inputColumns
  let bound ← transform.bind args workshop.ns
  let datasets ← sideDatasets bound.datasets
  let name ← chain.nextName workshop.namePrefix transform.name options.name
  chain.apply name ⟨transform, bound, input, Keyed.ofPairs datasets, "", none⟩
    options.outputColumns

end Chain
end TransformChain
