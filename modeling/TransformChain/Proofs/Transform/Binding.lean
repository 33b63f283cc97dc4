import TransformChain.Transform.Binding

/-!
# What binding gives

The values of bound arguments, parameter by parameter: a given argument has the shape that the
parameter states, and one that is left out has the default.
-/

namespace TransformChain

/-!
## What a parameter may hold
-/

def Shape.fits (shape : Shape) (value : Argument) : Bool :=
  shape == .any || shape == value.shape

namespace Shape

theorem fits_of_accepts {shape : Shape} {value : Argument} (hshape : shape ≠ .dataset)
    (h : shape.accepts value = true) : shape.fits value = true := by
  cases shape with
  | any => rfl
  | dataset => exact absurd rfl hshape
  | _ => exact h

theorem eq_mapping_of_fits {value : Argument} (h : mapping.fits value = true) :
    ∃ entries, value = .mapping entries := by
  cases value with
  | mapping entries => exact ⟨entries, rfl⟩
  | _ => cases h

theorem eq_list_of_fits {value : Argument} (h : list.fits value = true) :
    ∃ items, value = .list items := by
  cases value with
  | list items => exact ⟨items, rfl⟩
  | _ => cases h

theorem eq_dataset_of_fits {value : Argument} (h : dataset.fits value = true) :
    ∃ d, value = .dataset d := by
  cases value with
  | dataset d => exact ⟨d, rfl⟩
  | _ => cases h

end Shape

namespace Parameter

/-- The argument for a parameter; null counts as none. -/
def given? (p : Parameter) (args : Keyed Argument) : Option Argument :=
  (Keyed.get? p.name args).filter fun value => !value.isNull

/-- The value comes from the argument: it is the argument, or the table that the argument names for
a dataset. -/
def TakesGiven (p : Parameter) (ns : Option Namespace) (given value : Argument) : Prop :=
  (value = given ∧ p.shape.fits given = true) ∨
    p.shape = .dataset ∧ ∃ text table, given = .str text ∧ TableName.complete text ns = .ok table ∧
      value = .dataset (.table table none)

def Holds (p : Parameter) (ns : Option Namespace) (args : Keyed Argument) (value : Argument) :
    Prop :=
  (∃ given, p.given? args = some given ∧ p.TakesGiven ns given value) ∨
    p.given? args = none ∧ p.required = false ∧ value = p.default.getD .null

variable {p : Parameter} {ns : Option Namespace} {args : Keyed Argument} {given value : Argument}

theorem TakesGiven.fits (h : p.TakesGiven ns given value) : p.shape.fits value = true := by
  rcases h with ⟨rfl, hfits⟩ | ⟨hshape, text, table, -, -, rfl⟩
  · exact hfits
  · rw [hshape]
    rfl

theorem Holds.default_or_fits (h : p.Holds ns args value) :
    (p.required = false ∧ value = p.default.getD .null) ∨ p.shape.fits value = true := by
  rcases h with ⟨given, -, htakes⟩ | ⟨-, hdefault⟩
  · exact Or.inr htakes.fits
  · exact Or.inl hdefault

end Parameter

namespace Transform

variable {transform : Transform} {ns : Option Namespace} {args : Keyed Argument} {p : Parameter}

theorem bindParameters_of_bind {bound : Bound} (h : transform.bind args ns = .ok bound) :
    transform.bindParameters ns args transform.parameters = .ok bound.entries := by
  unfold bind at h
  cases hunexpected : transform.unexpected? args with
  | some name => simp [hunexpected] at h
  | none =>
      cases hbind : transform.bindParameters ns args transform.parameters with
      | error e => simp [hunexpected, hbind] at h
      | ok entries =>
          simp only [hunexpected, hbind, Except.ok.injEq] at h
          rw [← h]

theorem bindParameters_nil {entries : List (String × Argument)} :
    transform.bindParameters ns args [] = .ok entries ↔ [] = entries := by
  simp [bindParameters]

theorem bindParameters_cons {rest : List Parameter} {entries : List (String × Argument)} :
    transform.bindParameters ns args (p :: rest) = .ok entries ↔
      ∃ value others, transform.bindParameter ns args p = .ok value ∧
        transform.bindParameters ns args rest = .ok others ∧
        (p.name, value) :: others = entries := by
  simp only [bindParameters]
  cases transform.bindParameter ns args p with
  | error e => simp
  | ok value => cases transform.bindParameters ns args rest <;> simp

theorem takesGiven_of_bindGiven {given value : Argument}
    (h : transform.bindGiven ns p given = .ok value) : p.TakesGiven ns given value := by
  unfold bindGiven at h
  cases haccepts : p.shape.accepts given with
  | false => simp [haccepts] at h
  | true =>
      rw [if_pos haccepts] at h
      by_cases hshape : p.shape = .dataset
      · rw [if_pos hshape] at h
        rw [hshape] at haccepts
        cases given with
        | str text =>
            unfold asDataset at h
            cases hname : TableName.complete text ns with
            | error e => simp [hname] at h
            | ok table =>
                simp only [hname, Except.ok.injEq] at h
                exact Or.inr ⟨hshape, text, table, rfl, hname, h.symm⟩
        | dataset d =>
            cases h
            exact Or.inl ⟨rfl, by rw [hshape]; rfl⟩
        | _ => cases haccepts
      · rw [if_neg hshape, Except.ok.injEq] at h
        exact Or.inl ⟨h.symm, Shape.fits_of_accepts hshape haccepts⟩

theorem holds_of_bindParameter {value : Argument}
    (h : transform.bindParameter ns args p = .ok value) : p.Holds ns args value := by
  unfold bindParameter at h
  cases hgiven : p.given? args with
  | some given =>
      rw [Parameter.given?] at hgiven
      simp only [hgiven] at h
      exact Or.inl ⟨given, hgiven, takesGiven_of_bindGiven h⟩
  | none =>
      rw [Parameter.given?] at hgiven
      simp only [hgiven] at h
      cases hrequired : p.required with
      | true => simp [hrequired] at h
      | false =>
          rw [hrequired, if_neg Bool.false_ne_true, Except.ok.injEq] at h
          exact Or.inr ⟨hgiven, hrequired, h.symm⟩

theorem fits_of_required {value : Argument} (hrequired : p.required = true)
    (h : transform.bindParameter ns args p = .ok value) : p.shape.fits value = true := by
  rcases (holds_of_bindParameter h).default_or_fits with ⟨hleft, -⟩ | hfits
  · rw [hrequired] at hleft
    cases hleft
  · exact hfits

theorem eq_mapping_of_bindParameter {value : Argument} (hshape : p.shape = .mapping)
    (hrequired : p.required = true) (h : transform.bindParameter ns args p = .ok value) :
    ∃ entries, value = .mapping entries :=
  Shape.eq_mapping_of_fits (hshape ▸ fits_of_required hrequired h)

theorem eq_list_of_bindParameter {value : Argument} (hshape : p.shape = .list)
    (hrequired : p.required = true) (h : transform.bindParameter ns args p = .ok value) :
    ∃ items, value = .list items :=
  Shape.eq_list_of_fits (hshape ▸ fits_of_required hrequired h)

theorem eq_null_or_list_of_bindParameter {value : Argument} (hshape : p.shape = .list)
    (hdefault : p.default = none) (h : transform.bindParameter ns args p = .ok value) :
    value = .null ∨ ∃ items, value = .list items := by
  rcases (holds_of_bindParameter h).default_or_fits with ⟨-, hvalue⟩ | hfits
  · rw [hdefault] at hvalue
    exact Or.inl hvalue
  · rw [hshape] at hfits
    exact Or.inr (Shape.eq_list_of_fits hfits)

theorem eq_str_of_bindParameter {value : Argument} {text : String} (hshape : p.shape ≠ .dataset)
    (hgiven : Keyed.get? p.name args = some (.str text))
    (h : transform.bindParameter ns args p = .ok value) : value = .str text := by
  have hsome : p.given? args = some (.str text) := by
    unfold Parameter.given?
    rw [hgiven]
    rfl
  rcases holds_of_bindParameter h with ⟨given, hfound, htakes⟩ | ⟨hnone, -⟩
  · rw [hsome] at hfound
    cases hfound
    rcases htakes with ⟨hvalue, -⟩ | ⟨hdataset, -⟩
    · exact hvalue
    · exact absurd hdataset hshape
  · rw [hsome] at hnone
    cases hnone

theorem eq_dataset_of_bindParameter {value : Argument} (hshape : p.shape = .dataset)
    (hrequired : p.required = true) (h : transform.bindParameter ns args p = .ok value) :
    ∃ d, value = .dataset d :=
  Shape.eq_dataset_of_fits (hshape ▸ fits_of_required hrequired h)

theorem namesIn_of_bindParameter {value : Argument} (hshape : p.shape = .scalar)
    (hrequired : p.required = true) (h : transform.bindParameter ns args p = .ok value) :
    Template.Function.namesIn value.toValue = [value.toValue.display] := by
  rcases holds_of_bindParameter h with ⟨given, hgiven, htakes⟩ | ⟨-, hleft, -⟩
  · rcases htakes with ⟨rfl, hfits⟩ | ⟨hdataset, -⟩
    · have hnull : (!value.isNull) = true := (Option.filter_eq_some_iff.mp hgiven).right
      rw [hshape] at hfits
      cases value with
      | null => cases hnull
      | list items => cases hfits
      | mapping entries => cases hfits
      | dataset d => cases hfits
      | _ => rfl
    · rw [hshape] at hdataset
      cases hdataset
  · rw [hrequired] at hleft
    cases hleft

theorem exists_dataset_of_get? {name : String} {ps : List Parameter}
    {entries : List (String × Argument)} {value : Value}
    (hps : ∀ p ∈ ps, p.name = name → p.shape = .dataset ∧ p.required = true)
    (h : transform.bindParameters ns args ps = .ok entries)
    (hget : Keyed.get? name (entries.map fun entry => (entry.1, entry.2.toValue)) = some value) :
    ∃ d, (name, .dataset d) ∈ entries ∧ value = .str d.relation := by
  induction ps generalizing entries with
  | nil =>
      rw [bindParameters_nil] at h
      rw [← h] at hget
      cases hget
  | cons p rest ih =>
      rw [bindParameters_cons] at h
      rcases h with ⟨argument, others, hargument, hothers, rfl⟩
      rw [List.map_cons] at hget
      unfold Keyed.get? at hget
      by_cases hname : p.name = name
      · rw [if_pos hname] at hget
        rcases hps p List.mem_cons_self hname with ⟨hshape, hrequired⟩
        rcases eq_dataset_of_bindParameter hshape hrequired hargument with ⟨d, rfl⟩
        cases hget
        rw [hname]
        exact ⟨d, List.mem_cons_self, rfl⟩
      · rw [if_neg hname] at hget
        rcases ih (fun p hp => hps p (List.mem_cons_of_mem _ hp)) hothers hget
          with ⟨d, hd, hvalue⟩
        exact ⟨d, List.mem_cons_of_mem _ hd, hvalue⟩

end Transform
end TransformChain
