import Mathlib.Data.List.Forall2
import TransformChain.Proofs.Keyed.Entries
import TransformChain.Proofs.Transform.Shapes

/-!
# When binding succeeds

Binding accepts the arguments of a call exactly if it knows each of them and finds a value for each
parameter.  Otherwise it reports the first argument that it does not know, or else the first
parameter without a value.  Only this report depends on the order of the arguments.
-/

namespace TransformChain

/-!
## One parameter
-/

/-- The argument may be given for the shape: it has the shape, or it is a text where a dataset is
asked for. -/
def Shape.Admits (shape : Shape) (given : Argument) : Prop :=
  shape.fits given = true ∨ (shape = .dataset ∧ ∃ text, given = .str text)

theorem Shape.accepts_iff {shape : Shape} {given : Argument} :
    shape.accepts given = true ↔ shape.Admits given := by
  constructor
  · intro h
    by_cases hshape : shape = .dataset
    · subst hshape
      cases given with
      | str text => exact Or.inr ⟨rfl, text, rfl⟩
      | dataset d => exact Or.inl rfl
      | _ => cases h
    · exact Or.inl (fits_of_accepts hshape h)
  · rintro (hfits | ⟨rfl, text, rfl⟩)
    · cases shape with
      | dataset =>
          rcases eq_dataset_of_fits hfits with ⟨d, rfl⟩
          rfl
      | any => rfl
      | _ => exact hfits
    · rfl

namespace Parameter

structure Accepts (p : Parameter) (ns : Option Namespace) (args : Keyed Argument) : Prop where
  supplied : p.required = true → ∃ given, p.given? args = some given
  admitted : ∀ given, p.given? args = some given → p.shape.Admits given
  named : p.shape = .dataset → ∀ text, p.given? args = some (.str text) →
    ∃ table, TableName.complete text ns = .ok table

inductive Refuses (p : Parameter) (template : String) (ns : Option Namespace)
    (args : Keyed Argument) : Error → Prop where
  | missing : p.given? args = none → p.required = true →
      Refuses p template ns args (.missingArgument template p.name)
  | shape {given : Argument} : p.given? args = some given → ¬p.shape.Admits given →
      Refuses p template ns args (.argumentShape template p.name p.shape given.shape)
  | name {text : String} {e : Error} : p.given? args = some (.str text) → p.shape = .dataset →
      TableName.complete text ns = .error e → Refuses p template ns args e

variable {p : Parameter} {ns : Option Namespace} {args : Keyed Argument}

theorem Refuses.not_accepts {template : String} {e : Error} (h : p.Refuses template ns args e) :
    ¬p.Accepts ns args := by
  intro haccepts
  cases h with
  | missing hnone hrequired =>
      rcases haccepts.supplied hrequired with ⟨given, hgiven⟩
      rw [hnone] at hgiven
      cases hgiven
  | shape hgiven hshape => exact hshape (haccepts.admitted _ hgiven)
  | name hgiven hdataset hname =>
      rcases haccepts.named hdataset _ hgiven with ⟨table, htable⟩
      rw [hname] at htable
      cases htable

theorem Holds.accepts {value : Argument} (h : p.Holds ns args value) : p.Accepts ns args := by
  rcases h with ⟨given, hgiven, htakes⟩ | ⟨hnone, hrequired, -⟩
  · have hsame : ∀ {other}, p.given? args = some other → other = given := by
      intro other hother
      rw [hgiven] at hother
      exact (Option.some.inj hother).symm
    constructor
    case supplied => exact fun _ => ⟨given, hgiven⟩
    case admitted =>
      intro other hother
      rw [hsame hother]
      rcases htakes with ⟨-, hfits⟩ | ⟨hdataset, text, -, htext, -⟩
      · exact Or.inl hfits
      · exact Or.inr ⟨hdataset, text, htext⟩
    case named =>
      intro hdataset text htext
      rcases htakes with ⟨-, hfits⟩ | ⟨-, other, table, hother, hname, -⟩
      · rw [← hsame htext, hdataset] at hfits
        cases hfits
      · cases (hsame htext).trans hother
        exact ⟨table, hname⟩
  · constructor
    case supplied => simp [hrequired]
    case admitted => simp [hnone]
    case named => simp [hnone]

end Parameter

namespace Transform

variable {transform : Transform} {ns : Option Namespace} {args : Keyed Argument} {p : Parameter}

theorem bindParameter_of_given {given : Argument} (h : p.given? args = some given) :
    transform.bindParameter ns args p = transform.bindGiven ns p given := by
  rw [Parameter.given?] at h
  simp only [bindParameter, h]

theorem bindParameter_of_missing (h : p.given? args = none) :
    transform.bindParameter ns args p =
      if p.required then .error (.missingArgument transform.name p.name)
      else .ok (p.default.getD .null) := by
  rw [Parameter.given?] at h
  simp only [bindParameter, h]

theorem bindGiven_of_takesGiven {given value : Argument} (h : p.TakesGiven ns given value) :
    transform.bindGiven ns p given = .ok value := by
  unfold bindGiven
  rcases h with ⟨rfl, hfits⟩ | ⟨hdataset, text, table, rfl, hname, rfl⟩
  · rw [if_pos (Shape.accepts_iff.mpr (Or.inl hfits))]
    by_cases hdataset : p.shape = .dataset
    · rw [hdataset] at hfits
      rcases Shape.eq_dataset_of_fits hfits with ⟨d, rfl⟩
      rw [if_pos hdataset]
      rfl
    · rw [if_neg hdataset]
  · rw [if_pos (Shape.accepts_iff.mpr (Or.inr ⟨hdataset, text, rfl⟩)), if_pos hdataset]
    simp only [asDataset, hname]

theorem bindParameter_eq_ok_iff {value : Argument} :
    transform.bindParameter ns args p = .ok value ↔ p.Holds ns args value := by
  refine ⟨holds_of_bindParameter, ?_⟩
  rintro (⟨given, hgiven, htakes⟩ | ⟨hnone, hrequired, rfl⟩)
  · rw [bindParameter_of_given hgiven, bindGiven_of_takesGiven htakes]
  · rw [bindParameter_of_missing hnone, hrequired, if_neg Bool.false_ne_true]

theorem refuses_of_bindGiven {given : Argument} {e : Error} (hgiven : p.given? args = some given)
    (h : transform.bindGiven ns p given = .error e) : p.Refuses transform.name ns args e := by
  unfold bindGiven at h
  by_cases haccepts : p.shape.accepts given = true
  · rw [if_pos haccepts] at h
    by_cases hdataset : p.shape = .dataset
    · rw [if_pos hdataset] at h
      cases given with
      | str text =>
          cases hname : TableName.complete text ns with
          | ok table => simp [asDataset, hname] at h
          | error fault =>
              simp only [asDataset, hname, Except.error.injEq] at h
              rw [← h]
              exact .name hgiven hdataset hname
      | _ => cases h
    · rw [if_neg hdataset] at h
      cases h
  · rw [if_neg haccepts, Except.error.injEq] at h
    rw [← h]
    exact .shape hgiven (mt Shape.accepts_iff.mpr haccepts)

theorem bindParameter_eq_error_iff {e : Error} :
    transform.bindParameter ns args p = .error e ↔ p.Refuses transform.name ns args e := by
  constructor
  · intro h
    cases hgiven : p.given? args with
    | some given =>
        rw [bindParameter_of_given hgiven] at h
        exact refuses_of_bindGiven hgiven h
    | none =>
        rw [bindParameter_of_missing hgiven] at h
        cases hrequired : p.required with
        | true =>
            rw [hrequired, if_pos rfl, Except.error.injEq] at h
            rw [← h]
            exact .missing hgiven hrequired
        | false => simp [hrequired] at h
  · intro h
    cases h with
    | missing hnone hrequired => rw [bindParameter_of_missing hnone, hrequired, if_pos rfl]
    | shape hgiven hadmits =>
        rw [bindParameter_of_given hgiven, bindGiven, if_neg (mt Shape.accepts_iff.mp hadmits)]
    | @name text _ hgiven hdataset hname =>
        have hadmits : p.shape.Admits (.str text) := Or.inr ⟨hdataset, text, rfl⟩
        rw [bindParameter_of_given hgiven, bindGiven, if_pos (Shape.accepts_iff.mpr hadmits),
          if_pos hdataset]
        simp only [asDataset, hname]

theorem exists_bindParameter_iff :
    (∃ value, transform.bindParameter ns args p = .ok value) ↔ p.Accepts ns args := by
  constructor
  · rintro ⟨value, hvalue⟩
    exact (holds_of_bindParameter hvalue).accepts
  · intro haccepts
    cases hbind : transform.bindParameter ns args p with
    | ok value => exact ⟨value, rfl⟩
    | error e => exact absurd haccepts (bindParameter_eq_error_iff.mp hbind).not_accepts

/-!
## All parameters
-/

theorem bindParameters_eq_ok_iff {ps : List Parameter} {entries : List (String × Argument)} :
    transform.bindParameters ns args ps = .ok entries ↔
      List.Forall₂ (fun p entry => entry.1 = p.name ∧ p.Holds ns args entry.2) ps entries := by
  refine ⟨holds_of_bindParameters, fun h => ?_⟩
  induction h with
  | nil => rfl
  | @cons p entry ps entries hentry _ ih =>
      rcases entry with ⟨name, value⟩
      rcases hentry with ⟨rfl, hvalue⟩
      exact bindParameters_cons.mpr ⟨value, entries, bindParameter_eq_ok_iff.mpr hvalue, ih, rfl⟩

theorem exists_bindParameters_iff {ps : List Parameter} :
    (∃ entries, transform.bindParameters ns args ps = .ok entries) ↔
      ∀ p ∈ ps, p.Accepts ns args := by
  induction ps with
  | nil => simp [bindParameters]
  | cons p rest ih =>
      rw [List.forall_mem_cons, ← ih, ← exists_bindParameter_iff]
      simp only [bindParameters_cons]
      constructor
      · rintro ⟨_, value, others, hvalue, hothers, -⟩
        exact ⟨⟨value, hvalue⟩, others, hothers⟩
      · rintro ⟨⟨value, hvalue⟩, others, hothers⟩
        exact ⟨_, value, others, hvalue, hothers, rfl⟩

theorem bindParameters_cons_error {rest : List Parameter} {e : Error} :
    transform.bindParameters ns args (p :: rest) = .error e ↔
      p.Refuses transform.name ns args e ∨
        (p.Accepts ns args ∧ transform.bindParameters ns args rest = .error e) := by
  rw [← bindParameter_eq_error_iff, ← exists_bindParameter_iff, bindParameters]
  cases transform.bindParameter ns args p with
  | error fault => simp
  | ok value => cases transform.bindParameters ns args rest <;> simp

theorem bindParameters_eq_error_iff {ps : List Parameter} {e : Error} :
    transform.bindParameters ns args ps = .error e ↔
      ∃ before p after, ps = before ++ p :: after ∧ (∀ other ∈ before, other.Accepts ns args) ∧
        p.Refuses transform.name ns args e := by
  induction ps with
  | nil => simp [bindParameters]
  | cons p rest ih =>
      rw [bindParameters_cons_error, ih]
      constructor
      · rintro (hrefuses | ⟨haccepts, before, q, after, rfl, hbefore, hrefuses⟩)
        · exact ⟨[], p, rest, rfl, List.forall_mem_nil _, hrefuses⟩
        · exact ⟨p :: before, q, after, rfl, List.forall_mem_cons.mpr ⟨haccepts, hbefore⟩,
            hrefuses⟩
      · rintro ⟨before, q, after, heq, hbefore, hrefuses⟩
        rcases List.cons_eq_append_iff.mp heq with ⟨rfl, hcons⟩ | ⟨before, rfl, rfl⟩
        · cases hcons
          exact Or.inl hrefuses
        · rw [List.forall_mem_cons] at hbefore
          exact Or.inr ⟨hbefore.left, before, q, after, rfl, hbefore.right, hrefuses⟩

/-!
## Names of arguments
-/

def Expects (transform : Transform) (name : String) : Prop :=
  name ≠ sourceVariable ∧ ∃ p ∈ transform.parameters, p.name = name

theorem expects_iff {name : String} :
    transform.Expects name ↔
      (name == sourceVariable || (transform.parameter? name).isNone) = false := by
  simp [Expects, parameter?, beq_eq_false_iff_ne]

theorem unexpected?_eq_some_iff {name : String} :
    transform.unexpected? args = some name ↔
      ∃ before after, args.keys = before ++ name :: after ∧
        (∀ other ∈ before, transform.Expects other) ∧ ¬transform.Expects name := by
  simp only [unexpected?, List.find?_eq_some_iff_append, expects_iff, Bool.not_eq_false,
    Bool.not_eq_true']
  constructor
  · rintro ⟨hname, before, after, hkeys, hbefore⟩
    exact ⟨before, after, hkeys, hbefore, hname⟩
  · rintro ⟨before, after, hkeys, hbefore, hname⟩
    exact ⟨hname, before, after, hkeys, hbefore⟩

theorem unexpected?_eq_none_iff :
    transform.unexpected? args = none ↔ ∀ name ∈ args.keys, transform.Expects name := by
  simp only [unexpected?, List.find?_eq_none, expects_iff, Bool.not_eq_true]

/-!
## Calls
-/

structure Acceptable (transform : Transform) (args : Keyed Argument) (ns : Option Namespace) :
    Prop where
  expected : ∀ name ∈ args.keys, transform.Expects name
  accepted : ∀ p ∈ transform.parameters, p.Accepts ns args

/-- The error that a call is refused with: about the first argument that is not expected, or else
about the first parameter that has no value. -/
inductive Refuses (transform : Transform) (args : Keyed Argument) (ns : Option Namespace) :
    Error → Prop where
  | unexpected {before after : List String} {name : String} :
      args.keys = before ++ name :: after → (∀ other ∈ before, transform.Expects other) →
      ¬transform.Expects name →
      Refuses transform args ns (.unexpectedArgument transform.name name)
  | parameter {before after : List Parameter} {p : Parameter} {e : Error} :
      (∀ name ∈ args.keys, transform.Expects name) →
      transform.parameters = before ++ p :: after → (∀ other ∈ before, other.Accepts ns args) →
      p.Refuses transform.name ns args e → Refuses transform args ns e

theorem bind_of_expected (h : ∀ name ∈ args.keys, transform.Expects name) :
    transform.bind args ns =
      (transform.bindParameters ns args transform.parameters).map Bound.mk := by
  rw [bind, unexpected?_eq_none_iff.mpr h]
  cases transform.bindParameters ns args transform.parameters <;> rfl

theorem bind_of_unexpected {name : String} (h : transform.unexpected? args = some name) :
    transform.bind args ns = .error (.unexpectedArgument transform.name name) := by
  rw [bind, h]

theorem expected_of_bind {bound : Bound} (h : transform.bind args ns = .ok bound) :
    ∀ name ∈ args.keys, transform.Expects name := by
  cases hname : transform.unexpected? args with
  | none => exact unexpected?_eq_none_iff.mp hname
  | some name =>
      rw [bind_of_unexpected hname] at h
      cases h

theorem exists_bind_iff :
    (∃ bound, transform.bind args ns = .ok bound) ↔ transform.Acceptable args ns := by
  constructor
  · rintro ⟨bound, hbound⟩
    exact ⟨expected_of_bind hbound,
      exists_bindParameters_iff.mp ⟨_, bindParameters_of_bind hbound⟩⟩
  · rintro ⟨hexpected, haccepted⟩
    rcases exists_bindParameters_iff.mpr haccepted with ⟨entries, hentries⟩
    exact ⟨⟨entries⟩, by rw [bind_of_expected hexpected, hentries]; rfl⟩

theorem bind_eq_ok_iff {bound : Bound} :
    transform.bind args ns = .ok bound ↔
      (∀ name ∈ args.keys, transform.Expects name) ∧
        List.Forall₂ (fun p entry => entry.1 = p.name ∧ p.Holds ns args entry.2)
          transform.parameters bound.entries := by
  constructor
  · intro h
    exact ⟨expected_of_bind h, bindParameters_eq_ok_iff.mp (bindParameters_of_bind h)⟩
  · rintro ⟨hexpected, hholds⟩
    rw [bind_of_expected hexpected, bindParameters_eq_ok_iff.mpr hholds]
    rfl

theorem bind_eq_error_iff {e : Error} :
    transform.bind args ns = .error e ↔ transform.Refuses args ns e := by
  constructor
  · intro h
    cases hname : transform.unexpected? args with
    | some name =>
        rw [bind_of_unexpected hname, Except.error.injEq] at h
        rcases unexpected?_eq_some_iff.mp hname with ⟨before, after, hkeys, hbefore, hunexpected⟩
        rw [← h]
        exact .unexpected hkeys hbefore hunexpected
    | none =>
        have hexpected := unexpected?_eq_none_iff.mp hname
        rw [bind_of_expected hexpected] at h
        cases hbind : transform.bindParameters ns args transform.parameters with
        | ok entries =>
            rw [hbind] at h
            cases h
        | error fault =>
            rw [hbind] at h
            cases h
            rcases bindParameters_eq_error_iff.mp hbind
              with ⟨before, p, after, hparameters, hbefore, hrefuses⟩
            exact .parameter hexpected hparameters hbefore hrefuses
  · intro h
    cases h with
    | unexpected hkeys hbefore hunexpected =>
        exact bind_of_unexpected
          (unexpected?_eq_some_iff.mpr ⟨_, _, hkeys, hbefore, hunexpected⟩)
    | parameter hexpected hparameters hbefore hrefuses =>
        rw [bind_of_expected hexpected,
          bindParameters_eq_error_iff.mpr ⟨_, _, _, hparameters, hbefore, hrefuses⟩]
        rfl

/-!
## The order of the arguments
-/

section Rearranged

variable {rearranged : Keyed Argument} (hdistinct : args.keys.Nodup)
  (hperm : args.Perm rearranged)

include hdistinct hperm

theorem bindParameters_of_perm (ps : List Parameter) :
    transform.bindParameters ns args ps = transform.bindParameters ns rearranged ps := by
  induction ps with
  | nil => rfl
  | cons p rest ih =>
      simp only [bindParameters, bindParameter, ih,
        Keyed.get?_eq_of_perm hdistinct hperm]

theorem bind_of_perm {bound : Bound} (h : transform.bind args ns = .ok bound) :
    transform.bind rearranged ns = .ok bound := by
  have hexpected := expected_of_bind h
  have hkeys : ∀ name ∈ rearranged.keys, transform.Expects name :=
    fun name hname => hexpected name ((hperm.map Prod.fst).mem_iff.mpr hname)
  rw [bind_of_expected hkeys, ← bindParameters_of_perm hdistinct hperm,
    ← bind_of_expected hexpected, h]

end Rearranged

/-- A call whose arguments have different names is bound exactly if they are expected and accepted.
Each parameter then has its value, in the order of declaration; otherwise the error is about the
first argument or else the first parameter that is at fault.  What is bound does not depend on the
order of the arguments. -/
theorem bind_exact (hdistinct : args.keys.Nodup) :
    ((∃ bound, transform.bind args ns = .ok bound) ↔ transform.Acceptable args ns) ∧
    (∀ bound, transform.bind args ns = .ok bound ↔
      (∀ name ∈ args.keys, transform.Expects name) ∧
        List.Forall₂ (fun p entry => entry.1 = p.name ∧ p.Holds ns args entry.2)
          transform.parameters bound.entries) ∧
    (∀ e, transform.bind args ns = .error e ↔ transform.Refuses args ns e) ∧
    ∀ rearranged, args.Perm rearranged → ∀ bound, transform.bind args ns = .ok bound →
      transform.bind rearranged ns = .ok bound :=
  ⟨exists_bind_iff, fun _ => bind_eq_ok_iff, fun _ => bind_eq_error_iff,
    fun _ hperm _ hbound => bind_of_perm hdistinct hperm hbound⟩

def sampling : Transform :=
  ⟨"sample", "", [],
    [⟨"other", .dataset, true, none, ""⟩, ⟨"share", .scalar, false, some (.int 10), ""⟩],
    ⟨"sample", "", [], []⟩⟩

theorem sampling_bound :
    ∃ bound, bound.entries = [("other", .dataset (.table ⟨"D", "S", "B"⟩ none)),
        ("share", .int 10)] ∧
      sampling.bind [("share", .null), ("other", .str "B")] (some ⟨"D", "S"⟩) = .ok bound ∧
      sampling.bind [("other", .str "B"), ("share", .null)] (some ⟨"D", "S"⟩) = .ok bound := by
  have hbind : sampling.bind [("share", .null), ("other", .str "B")] (some ⟨"D", "S"⟩) =
      .ok ⟨[("other", .dataset (.table ⟨"D", "S", "B"⟩ none)), ("share", .int 10)]⟩ := by rfl
  exact ⟨_, rfl, hbind, (bind_exact (by decide)).right.right.right _ (.swap _ _ []) _ hbind⟩

end Transform
end TransformChain
