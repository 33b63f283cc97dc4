import TransformChain.Transform.Binding
import TransformChain.Transform.Registry
import TransformChain.Warehouse.Resolver

/-!
# Chains

A chain is a base dataset with transforms applied to it one after the other.  Extending a chain
makes a new one; chains share what they have in common.
-/

namespace TransformChain

/-- A transform that was applied: what it was given, what it saw, and what it wrote. -/
structure Step where
  transform : Transform
  arguments : Bound
  input : Option Schema
  datasets : List (String × Template.SideDataset)
  fragment : String
  output : Option Schema

inductive Chain where
  | root (dataset : Dataset)
  | step (parent : Chain) (name : String) (step : Step)

namespace Step

def context (step : Step) (source label : String) : Template.Context where
  source := source
  sourceLabel := label
  input := step.input
  datasets := step.datasets
  arguments := step.arguments.values

def renderFrom (step : Step) (source label : String) : Except Error Template.Rendered :=
  Template.render step.transform.template (step.context source label)

end Step

namespace Chain

/-- The name of the last step, or the label of the base dataset. -/
def name : Chain → String
  | root dataset => dataset.label
  | step _ name _ => name

def depth : Chain → Nat
  | root _ => 0
  | step parent _ _ => parent.depth + 1

def source : Chain → Dataset
  | root dataset => dataset
  | step parent _ _ => parent.source

def isRoot : Chain → Bool
  | root _ => true
  | step _ _ _ => false

def parent? : Chain → Option Chain
  | root _ => none
  | step parent _ _ => some parent

def step? : Chain → Option Step
  | root _ => none
  | step _ _ s => some s

/-- The chains that end with each of the transforms, from the first to the last. -/
def lineage : Chain → List Chain
  | root _ => []
  | step parent name s => parent.lineage ++ [step parent name s]

def stepNames : Chain → List String
  | root _ => []
  | step parent name _ => parent.stepNames ++ [name]

def relation : Chain → String
  | root dataset => dataset.relation
  | step _ name _ => name

/-- The columns that are known without asking the warehouse. -/
def declaredColumns : Chain → Option Schema
  | root dataset => dataset.columns
  | step _ _ s => s.output

def hasStepNamed (chain : Chain) (name : String) : Bool :=
  chain.stepNames.any (fun taken => Text.lowerAscii taken == Text.lowerAscii name)

end Chain
end TransformChain
