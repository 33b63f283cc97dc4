import TransformChain.Pipeline.Building
import TransformChain.Proofs.Keyed.Entries

/-!
# Names in pipelines

On every level of a pipeline the datasets have different names.
-/

namespace TransformChain

/-!
## Datasets on every level
-/

namespace Pipeline

variable {pipeline : Pipeline} {datasets : List (String × Pipeline)}

mutual

def Distinct : Pipeline → Prop
  | .of _ datasets _ => (Keyed.keys datasets).Nodup ∧ AllDistinct datasets

def AllDistinct : List (String × Pipeline) → Prop
  | [] => True
  | (_, pipeline) :: rest => pipeline.Distinct ∧ AllDistinct rest

end

theorem allDistinct_iff : AllDistinct datasets ↔ ∀ entry ∈ datasets, entry.2.Distinct := by
  induction datasets with
  | nil => simp [AllDistinct]
  | cons entry rest ih => rw [AllDistinct, ih, List.forall_mem_cons]

theorem distinct_of {source : String} {plans : List StepPlan} :
    (Pipeline.of source datasets plans).Distinct ↔
      (Keyed.keys datasets).Nodup ∧ ∀ entry ∈ datasets, entry.2.Distinct := by
  rw [Distinct, allDistinct_iff]

end Pipeline
end TransformChain
