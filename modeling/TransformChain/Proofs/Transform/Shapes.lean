import Mathlib.Data.List.Forall2
import TransformChain.Chain.Extension
import TransformChain.Proofs.Keyed.Entries
import TransformChain.Proofs.Template.Comparison
import TransformChain.Proofs.Transform.Binding
import TransformChain.Proofs.Warehouse.Asking

/-!
# The shapes of bound values

A value that is given has the shape that its parameter states once it is bound, and a dataset that
is given by its name has become one.  A default is taken as it stands.  So the shapes of all bound
values rest on the defaults, and with them which datasets a template can ask about.
-/

namespace TransformChain

/-!
## Shapes
-/

namespace Parameter

def Suits (p : Parameter) (value : Argument) : Prop :=
  value = .null ∨ p.shape.fits value = true

/-- The shape of a bound value can only be wrong where a default is taken. -/
theorem Holds.suits_iff {p : Parameter} {ns : Option Namespace} {args : Keyed Argument}
    {value : Argument} (h : p.Holds ns args value) :
    p.Suits value ↔ (p.given? args = none → p.Suits (p.default.getD .null)) := by
  rcases h with ⟨given, hgiven, htakes⟩ | ⟨hnone, -, rfl⟩
  · constructor
    · intro _ hnone
      rw [hgiven] at hnone
      cases hnone
    · exact fun _ => Or.inr htakes.fits
  · exact ⟨fun h _ => h, fun h => h hnone⟩

end Parameter

/-!
## All parameters
-/

namespace Transform

variable {transform : Transform} {ns : Option Namespace} {args : Keyed Argument}

/-- By induction on the parameters, whose values are bound in their order. -/
theorem holds_of_bindParameters {ps : List Parameter} {entries : List (String × Argument)}
    (h : transform.bindParameters ns args ps = .ok entries) :
    List.Forall₂ (fun p entry => entry.1 = p.name ∧ p.Holds ns args entry.2) ps entries := by
  induction ps generalizing entries with
  | nil =>
      rw [bindParameters_nil] at h
      rw [← h]
      exact .nil
  | cons p rest ih =>
      rw [bindParameters_cons] at h
      rcases h with ⟨value, others, hvalue, hothers, rfl⟩
      exact .cons ⟨rfl, holds_of_bindParameter hvalue⟩ (ih hothers)

end Transform

/-!
## Datasets
-/

theorem Bound.mem_datasets_iff {bound : Bound} {name : String} {d : Dataset} :
    (name, d) ∈ bound.datasets ↔ (name, Argument.dataset d) ∈ bound.entries := by
  unfold datasets
  rw [List.mem_filterMap]
  constructor
  · rintro ⟨⟨key, value⟩, hentry, heq⟩
    cases value with
    | dataset other =>
        cases heq
        exact hentry
    | _ => cases heq
  · intro h
    exact ⟨_, h, rfl⟩

theorem Chain.keys_of_sideDatasets {datasets : List (String × Dataset)}
    {sides : List (String × Template.SideDataset)} {before after : Resolver}
    (h : sideDatasets datasets before = (.ok sides, after)) :
    Keyed.keys sides = datasets.map fun entry => entry.2.relation := by
  induction datasets generalizing sides before with
  | nil =>
      rw [sideDatasets, Asking.pure_eq_ok_iff] at h
      rw [← h.left]
      rfl
  | cons entry rest ih =>
      rcases entry with ⟨name, dataset⟩
      simp only [sideDatasets, Asking.bind_eq_ok_iff, Asking.pure_eq_ok_iff] at h
      rcases h with ⟨columns, _, -, others, _, hothers, rfl, rfl⟩
      simp only [Keyed.keys, List.map_cons]
      exact congrArg _ (ih hothers)

namespace Template

/-- The template can ask for the columns of the dataset that a value stands for; only that they are
not known can come in between. -/
def Scene.CanAsk (scene : Scene) (value : Value) : Prop :=
  (∃ schema : Schema,
    Function.pure scene "get_columns" ⟨[value], []⟩ = .ok (Function.columnMap schema) ∧
    Function.pure scene "columns" ⟨[value], []⟩ = .ok (Function.columnList schema.names)) ∨
  ∃ label,
    Function.pure scene "get_columns" ⟨[value], []⟩ =
      .error (.schemaUnavailable label .unlisted) ∧
    Function.pure scene "columns" ⟨[value], []⟩ = .error (.schemaUnavailable label .unlisted)

theorem Scene.canAsk_of_schemaOf {scene : Scene} {value : Value}
    (h : (∃ found, Function.schemaOf scene (some value) = .ok found) ∨
      ∃ label, Function.schemaOf scene (some value) =
        .error (.schemaUnavailable label .unlisted)) : scene.CanAsk value := by
  rcases h with ⟨⟨schema, label⟩, hschema⟩ | ⟨label, hschema⟩
  · refine Or.inl ⟨schema, ?_, ?_⟩ <;>
      simp only [Function.pure, Function.Call.argument, List.getElem?_cons_zero, hschema] <;> rfl
  · refine Or.inr ⟨label, ?_, ?_⟩ <;>
      simp only [Function.pure, Function.Call.argument, List.getElem?_cons_zero, hschema] <;> rfl

theorem Scene.canAsk_of_get? {scene : Scene} {relation : String}
    (h : ∃ side, Keyed.get? relation scene.context.datasets = some side) :
    scene.CanAsk (.str relation) := by
  apply Scene.canAsk_of_schemaOf
  unfold Function.schemaOf Function.asked
  by_cases hsource : relation = scene.context.source
  · simp only [hsource, if_true]
    cases scene.context.input with
    | some schema => exact Or.inl ⟨_, rfl⟩
    | none => exact Or.inr ⟨_, rfl⟩
  · rcases h with ⟨⟨label, columns⟩, hside⟩
    simp only [hsource, if_false, Function.sideDataset, hside]
    cases columns with
    | some schema => exact Or.inl ⟨_, rfl⟩
    | none => exact Or.inr ⟨_, rfl⟩

end Template

/-!
## Bound values
-/

namespace Transform

variable {transform : Transform} {args : Keyed Argument} {ns : Option Namespace}

theorem forall₂_suits_iff {ps : List Parameter} {entries : List (String × Argument)}
    (h : List.Forall₂ (fun p entry => entry.1 = p.name ∧ p.Holds ns args entry.2) ps entries) :
    List.Forall₂ (fun p entry => p.Suits entry.2) ps entries ↔
      ∀ p ∈ ps, p.given? args = none → p.Suits (p.default.getD .null) := by
  induction h with
  | nil => simp
  | cons hhead _ ih => rw [List.forall₂_cons, hhead.right.suits_iff, ih, List.forall_mem_cons]

/-- Binding gives each parameter, in order, its argument or its default.  All of the values have
the stated shapes exactly if the defaults that are taken have them.  A value of a dataset parameter
is among the datasets exactly if it has the shape, and then the template can ask for its columns,
however the columns of the datasets were found out. -/
theorem bound_values_suit_iff {bound : Bound} (h : transform.bind args ns = .ok bound) :
    List.Forall₂ (fun p entry => entry.1 = p.name ∧ p.Holds ns args entry.2)
      transform.parameters bound.entries ∧
    (List.Forall₂ (fun p entry => p.Suits entry.2) transform.parameters bound.entries ↔
      ∀ p ∈ transform.parameters, p.given? args = none → p.Suits (p.default.getD .null)) ∧
    List.Forall₂
      (fun p entry => p.shape = .dataset → entry.2 ≠ .null →
        (p.Suits entry.2 ↔ ∃ d, entry.2 = .dataset d ∧ (p.name, d) ∈ bound.datasets))
      transform.parameters bound.entries ∧
    ∀ entry ∈ bound.datasets, (entry.1, Value.str entry.2.relation) ∈ bound.values ∧
      ∀ (before after : Resolver) (sides : List (String × Template.SideDataset)),
        Chain.sideDatasets bound.datasets before = (.ok sides, after) →
        ∀ scene : Template.Scene, scene.context.datasets = Keyed.ofPairs sides →
          scene.CanAsk (.str entry.2.relation) := by
  have hholds := holds_of_bindParameters (bindParameters_of_bind h)
  refine ⟨hholds, forall₂_suits_iff hholds, ?_, ?_⟩
  · rw [List.forall₂_iff_zip] at hholds ⊢
    refine ⟨hholds.left, ?_⟩
    rintro p ⟨name, value⟩ hmem hshape hvalue
    cases (hholds.right hmem).left
    constructor
    · rintro (hnull | hfits)
      · exact absurd hnull hvalue
      · rw [hshape] at hfits
        rcases Shape.eq_dataset_of_fits hfits with ⟨d, rfl⟩
        exact ⟨d, rfl, Bound.mem_datasets_iff.mpr (List.of_mem_zip hmem).right⟩
    · rintro ⟨d, rfl, -⟩
      rw [Parameter.Suits, hshape]
      exact Or.inr rfl
  · rintro ⟨name, d⟩ hentry
    refine ⟨List.mem_map.mpr ⟨_, Bound.mem_datasets_iff.mp hentry, rfl⟩, ?_⟩
    intro before after sides hsides scene hscene
    apply Template.Scene.canAsk_of_get?
    rw [hscene]
    apply Keyed.exists_get?_ofPairs
    rw [Chain.keys_of_sideDatasets hsides]
    exact List.mem_map.mpr ⟨_, hentry, rfl⟩

def listingOther : Listing :=
  ⟨"list", "", [], [⟨"other", .dataset, false, some (.str "A.B.C"), ""⟩]⟩

def listingOtherText : String :=
  "SELECT \x7b\x7b columns(other)|join(', ') \x7d\x7d"

def listOther : Transform :=
  ⟨"list", "", [], listingOther.parameters,
    ⟨"list", listingOtherText,
      ⟨[.text "SELECT ",
        .output (.filter (.call (.var "columns") [.var "other"] []) "join" [.lit (.str ", ")])],
        []⟩⟩⟩

theorem create_listOther : Transform.create listingOther listingOtherText = .ok listOther := by
  have hparse :
      Template.Body.parse listingOther.name listingOtherText = .ok listOther.template.body := by
    apply Template.Body.parse_of_readsAs
    · exact String.toList_ofList
    · decide +kernel
  have hnames : nameFault? [] listingOther.parameters = none := by decide
  unfold Transform.create Template.parse
  rw [hnames, hparse]
  rfl

theorem listOther_given_suits :
    ∃ bound, listOther.bind [("other", .str "B")] (some ⟨"D", "S"⟩) = .ok bound ∧
      bound.datasets = [("other", .table ⟨"D", "S", "B"⟩ none)] ∧
      List.Forall₂ (fun p entry => p.Suits entry.2) listOther.parameters bound.entries := by
  have hbind : listOther.bind [("other", .str "B")] (some ⟨"D", "S"⟩) =
      .ok ⟨[("other", .dataset (.table ⟨"D", "S", "B"⟩ none))]⟩ := by rfl
  refine ⟨_, hbind, rfl, (bound_values_suit_iff hbind).right.left.mpr fun p hp hgiven => ?_⟩
  cases List.mem_singleton.mp hp
  cases hgiven

/-- The same name as a default stays a text, which is no dataset to the template. -/
theorem default_name_stays_text :
    Transform.create listingOther listingOtherText = .ok listOther ∧
    ∃ bound, listOther.bind [] none = .ok bound ∧
      bound.entries = [("other", .str "A.B.C")] ∧ bound.datasets = [] ∧
      ¬List.Forall₂ (fun p entry => p.Suits entry.2) listOther.parameters bound.entries ∧
      Template.render listOther.template ⟨"T", "T", none, [], bound.values⟩ =
        .error (.templateEvaluation "list" (.notDatasetArgument "A.B.C")) := by
  refine ⟨create_listOther, ⟨[("other", .str "A.B.C")]⟩, rfl, rfl, rfl, ?_, rfl⟩
  rintro (_ | ⟨hsuits | hsuits, -⟩)
  · cases hsuits
  · cases hsuits

end Transform
end TransformChain
