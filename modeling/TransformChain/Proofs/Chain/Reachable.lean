import TransformChain.Chain.Extension
import TransformChain.Chain.Query
import TransformChain.Proofs.Warehouse.Asking

/-!
# Reachable chains

The chains that extensions lead to, and what a successful extension did.  Everything else that is
proved about chains goes by induction over the extensions and reads the last one off here.
-/

namespace TransformChain
namespace Chain

/-- The chains that extensions lead to from a base dataset, whatever the workshop, the transform,
the arguments, the options and the knowledge about columns are at each of them. -/
inductive Reachable : Chain → Prop where
  | root (dataset : Dataset) : Reachable (.root dataset)
  | extend {chain next : Chain} {workshop : Workshop} {transformName : String}
      {args : Keyed Argument} {options : StepOptions} {before after : Resolver} :
      Reachable chain →
      chain.extend workshop transformName args options before = (.ok next, after) →
      Reachable next

/-!
## One extension
-/

/-- A step that is not written yet: what it will see, without fragment and output. -/
def unwritten (transform : Transform) (bound : Bound) (input : Option Schema)
    (sides : List (String × Template.SideDataset)) : Step :=
  ⟨transform, bound, input, Keyed.ofPairs sides, "", none⟩

def written (step : Step) (rendered : Template.Rendered) (outputColumns : Option Schema) : Step :=
  { step with fragment := rendered.sql, output := outputColumns.orElse fun _ => rendered.output }

/-- Everything that an extension went through on its way to the new chain. -/
structure Extension (workshop : Workshop) (chain : Chain) (transformName : String)
    (args : Keyed Argument) (options : StepOptions) (before : Resolver) (next : Chain)
    (after : Resolver) where
  transform : Transform
  input : Option Schema
  between : Resolver
  bound : Bound
  sides : List (String × Template.SideDataset)
  name : String
  rendered : Template.Rendered
  lookup_eq : workshop.registry.lookup transformName = .ok transform
  input_eq : chain.inputColumns before = (.ok input, between)
  bind_eq : transform.bind args workshop.ns = .ok bound
  sides_eq : sideDatasets bound.datasets between = (.ok sides, after)
  name_eq : chain.nextName workshop.namePrefix transform.name options.name = .ok name
  render_eq :
    (unwritten transform bound input sides).renderFrom chain.relation chain.name = .ok rendered
  next_eq :
    next = .step chain name
      (written (unwritten transform bound input sides) rendered options.outputColumns)

theorem apply_eq_ok_iff {chain next : Chain} {name : String} {step : Step}
    {outputColumns : Option Schema} :
    chain.apply name step outputColumns = .ok next ↔
      ∃ rendered, step.renderFrom chain.relation chain.name = .ok rendered ∧
        next = .step chain name (written step rendered outputColumns) := by
  unfold apply
  cases step.renderFrom chain.relation chain.name with
  | error e => simp
  | ok rendered =>
      cases outputColumns with
      | none => simp [written, eq_comm]
      | some columns => simp [written, eq_comm]

theorem extend_eq_ok_iff {workshop : Workshop} {chain next : Chain} {transformName : String}
    {args : Keyed Argument} {options : StepOptions} {before after : Resolver} :
    chain.extend workshop transformName args options before = (.ok next, after) ↔
      Nonempty (Extension workshop chain transformName args options before next after) := by
  unfold extend
  simp only [Asking.bind_eq_ok_iff, Asking.lift_eq_ok_iff]
  constructor
  · rintro ⟨transform, _, ⟨hlookup, rfl⟩, input, between, hinput, bound, _, ⟨hbind, rfl⟩, sides, _,
      hsides, name, _, ⟨hname, rfl⟩, happly, rfl⟩
    rcases apply_eq_ok_iff.mp happly with ⟨rendered, hrender, hnext⟩
    exact ⟨⟨transform, input, between, bound, sides, name, rendered, hlookup, hinput, hbind,
      hsides, hname, hrender, hnext⟩⟩
  · rintro ⟨e⟩
    exact ⟨e.transform, before, ⟨e.lookup_eq, rfl⟩, e.input, e.between, e.input_eq, e.bound,
      e.between, ⟨e.bind_eq, rfl⟩, e.sides, after, e.sides_eq, e.name, after, ⟨e.name_eq, rfl⟩,
      apply_eq_ok_iff.mpr ⟨e.rendered, e.render_eq, e.next_eq⟩, rfl⟩

theorem Extension.name_next {workshop : Workshop} {chain next : Chain} {transformName : String}
    {args : Keyed Argument} {options : StepOptions} {before after : Resolver}
    (e : Extension workshop chain transformName args options before next after) :
    next.name = e.name :=
  congrArg Chain.name e.next_eq

/-- An extension comes as far as the name of its step: the transform is known, the arguments are
bound, and the questions about columns are answered. -/
def ReachesNaming (workshop : Workshop) (chain : Chain) (transformName : String)
    (args : Keyed Argument) (before : Resolver) (transform : Transform) (after : Resolver) :
    Prop :=
  ∃ input between bound sides,
    workshop.registry.lookup transformName = .ok transform ∧
    chain.inputColumns before = (.ok input, between) ∧
    transform.bind args workshop.ns = .ok bound ∧
    sideDatasets bound.datasets between = (.ok sides, after)

theorem Extension.reachesNaming {workshop : Workshop} {chain next : Chain}
    {transformName : String} {args : Keyed Argument} {options : StepOptions}
    {before after : Resolver}
    (e : Extension workshop chain transformName args options before next after) :
    ReachesNaming workshop chain transformName args before e.transform after :=
  ⟨e.input, e.between, e.bound, e.sides, e.lookup_eq, e.input_eq, e.bind_eq, e.sides_eq⟩

theorem extend_of_nextName_error {workshop : Workshop} {chain : Chain} {transformName : String}
    {args : Keyed Argument} {options : StepOptions} {before after : Resolver}
    {transform : Transform} {error : Error}
    (h : ReachesNaming workshop chain transformName args before transform after)
    (hname : chain.nextName workshop.namePrefix transform.name options.name = .error error) :
    chain.extend workshop transformName args options before = (.error error, after) := by
  rcases h with ⟨input, between, bound, sides, hlookup, hinput, hbind, hsides⟩
  unfold extend
  simp only [Asking.bind_apply, Asking.lift_apply, hlookup, hinput, hbind, hsides, hname]

/-!
## What holds of every step
-/

def EachStep (p : Chain → Step → Prop) : Chain → Prop
  | root _ => True
  | step parent _ s => EachStep p parent ∧ p parent s

theorem Reachable.eachStep {p : Chain → Step → Prop} {chain : Chain} (h : Reachable chain)
    (hp : ∀ {workshop chain transformName args options before next after}
      (e : Extension workshop chain transformName args options before next after),
      p chain (written (unwritten e.transform e.bound e.input e.sides) e.rendered
        options.outputColumns)) :
    EachStep p chain := by
  induction h with
  | root dataset => exact trivial
  | extend _ hextend ih =>
      rcases extend_eq_ok_iff.mp hextend with ⟨e⟩
      rw [e.next_eq]
      exact ⟨ih, hp e⟩

/-!
## A small chain

A query that is copied twice.  The first copy is given the name that the second would get.
-/

def numbers : Chain :=
  .root (.query "NUMBERS" "SELECT 1 AS N" (some [⟨"N", none⟩]))

def copying : Transform where
  name := "copy"
  description := ""
  tags := []
  parameters := []
  template := ⟨"copy", "SELECT * FROM \x7b\x7b source_table \x7d\x7d",
    ⟨[.text "SELECT * FROM ", .output (.var "source_table")], []⟩⟩

def copyWorkshop : Workshop :=
  ⟨⟨[copying]⟩, none, "STEP"⟩

def copiedOnce : Chain :=
  .step numbers "step_2_copy"
    ⟨copying, ⟨[]⟩, some [⟨"N", none⟩], [], "SELECT * FROM (\nSELECT 1 AS N\n)", none⟩

def copiedTwice : Chain :=
  .step copiedOnce "STEP_2_COPY_2" ⟨copying, ⟨[]⟩, none, [], "SELECT * FROM step_2_copy", none⟩

theorem reachable_copiedOnce : Reachable copiedOnce := by
  have h : numbers.extend copyWorkshop "copy" [] ⟨some "step_2_copy", none⟩ default =
      (.ok copiedOnce, default) := by rfl
  exact .extend (.root _) h

theorem reachable_copiedTwice : Reachable copiedTwice := by
  have h : copiedOnce.extend copyWorkshop "copy" [] ⟨none, none⟩ default =
      (.ok copiedTwice, default) := by rfl
  exact .extend reachable_copiedOnce h

end Chain
end TransformChain
