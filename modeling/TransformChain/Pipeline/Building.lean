import TransformChain.Failure
import TransformChain.Pipeline.Basic
import TransformChain.Session

/-!
# Building pipelines

Turns a pipeline into a chain.  The datasets come first, in order; then the steps are applied to
the base table.  A text that begins with an at sign names one of the datasets.
-/

namespace TransformChain

abbrev Building (α : Type) := ExceptT Failure (StateM Resolver) α

namespace Pipeline

def parse (document : String) : Except Failure Pipeline :=
  match parse? document with
  | some pipeline => .ok pipeline
  | none => .error ⟨[.parsePipeline], .undecodable⟩

def reference? : Argument → Option String
  | .str s =>
      match s.toList with
      | '@' :: key => some (String.ofList key)
      | _ => none
  | _ => none

def resolve (partners : Keyed Dataset) (name : String) (value : Argument) :
    Except Failure Argument :=
  match reference? value with
  | none => .ok value
  | some key =>
      match Keyed.get? key partners with
      | some dataset => .ok (.dataset dataset)
      | none => .error (.ofCause (.unknownDataset name key))

def resolveAll (partners : Keyed Dataset) :
    List (String × Argument) → Except Failure (List (String × Argument))
  | [] => .ok []
  | (name, value) :: rest =>
      match resolve partners name value with
      | .error failure => .error failure
      | .ok resolved =>
          match resolveAll partners rest with
          | .error failure => .error failure
          | .ok others => .ok ((name, resolved) :: others)

def applySteps (session : Session) (partners : Keyed Dataset) :
    Nat → List StepPlan → Chain → Building Chain
  | _, [], chain => pure chain
  | position, step :: rest, chain => do
      let args ← resolveAll partners step.args
      let next ← attempting (.applyStep position step.transform)
        (plainly (session.transform chain step.transform args ⟨step.name, step.outputColumns⟩))
      applySteps session partners (position + 1) rest next

mutual

def build (session : Session) : Pipeline → Building Chain
  | .of source datasets steps => do
      let partners ← buildPartners session datasets
      let root ← attempting (.useSource source) (plainly (session.dataset source))
      applySteps session partners 1 steps root

def buildPartners (session : Session) :
    List (String × Pipeline) → Building (Keyed Dataset)
  | [] => pure []
  | (name, pipeline) :: rest => do
      let chain ← attempting (.buildDataset name) (build session pipeline)
      let dataset ← plainly (session.asDataset chain)
      let others ← buildPartners session rest
      return (name, dataset) :: others

end

end Pipeline
end TransformChain
