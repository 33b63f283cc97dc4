import TransformChain.Proofs.Library.SelectList
import TransformChain.Proofs.Text.Splicing

/-!
# Conditions on columns

A filter checks the column of each condition that is given as a mapping, and writes it in front of
the operator.  What it writes are the names that it has checked, so that it refers to a column of
the input, unless there is no name to check: then the condition begins with its operator.
-/

namespace TransformChain

open Template.Function (namesIn typedNames)

theorem Value.displayAll_eq (items : List Value) : displayAll items = items.map display := by
  induction items with
  | nil => rfl
  | cons item rest ih => rw [displayAll, ih, List.map_cons]

theorem Value.display_eq_join_names (v : Value) : v.display = Text.join ", " (namesIn v) := by
  cases v with
  | null => rfl
  | list items => rw [display, displayAll_eq, namesIn]
  | map entries => rw [display, namesIn]
  | _ => rfl

namespace Library

open Template

/-!
## References
-/

def columnOf (parts : List (String × Value)) : Value :=
  (Keyed.get? "column" parts).getD .null

def comparisonText (parts : List (String × Value)) : String :=
  operatorText ((Keyed.get? "operator" parts).getD .null) ++ " " ++
    ((Keyed.get? "value" parts).getD .null).display

/-- The column of a condition is given, names a column of the schema, and is written. -/
structure Refers (schema : Schema) (parts : List (String × Value)) : Prop where
  given : columnOf parts ≠ .null
  named : ∃ name ∈ namesIn (columnOf parts), schema.has name = true
  written : (columnOf parts).display ≠ ""

theorem conditionText_eq (parts : List (String × Value)) :
    conditionText (.map parts) =
      Text.join ", " (namesIn (columnOf parts)) ++ " " ++ comparisonText parts := by
  rw [← Value.display_eq_join_names]
  simp only [conditionText, columnOf, comparisonText, String.append_assoc]

/-- A condition whose names have all been found refers to a column unless they are none, or only the
empty one. -/
theorem refers_iff {schema : Schema} {parts : List (String × Value)}
    (hhas : ∀ name ∈ namesIn (columnOf parts), schema.has name = true) :
    Refers schema parts ↔
      namesIn (columnOf parts) ≠ [] ∧ namesIn (columnOf parts) ≠ [""] := by
  have hempty : (columnOf parts).display = "" ↔
      namesIn (columnOf parts) = [] ∨ namesIn (columnOf parts) = [""] := by
    rw [Value.display_eq_join_names]
    exact Text.join_eq_empty_iff (by decide) _
  constructor
  · intro hrefers
    exact not_or.mp fun hnone => hrefers.written (hempty.mpr hnone)
  · intro hnames
    refine ⟨?_, ?_, fun hdisplay => not_or.mpr hnames (hempty.mp hdisplay)⟩
    · intro hnull
      rw [hnull] at hnames
      exact hnames.left rfl
    · rcases List.exists_mem_of_ne_nil _ hnames.left with ⟨name, hname⟩
      exact ⟨name, hname, hhas name hname⟩

/-!
## The conditions of a filter
-/

/-- Whatever a filter is given, if it renders, then its conditions stand on lines of their own
behind `WHERE`, and those that are given as mappings begin with the names of their columns, which
all are columns of the input.  Such a condition refers to a column of the input exactly if its
column gives a name that is not empty; the others begin with their operator. -/
theorem filter_refers_iff {transform : Transform}
    (hcreate : Transform.create filterListing filterBody = .ok transform)
    {args : Keyed Argument} {ns : Option Namespace} {bound : Bound}
    (hbind : transform.bind args ns = .ok bound) {context : Context}
    (harguments : context.arguments = bound.values) {rendered : Rendered}
    (hrender : render transform.template context = .ok rendered) :
    ∃ schema text items,
      context.input = some schema ∧
      (Scene.run ⟨transform.template, context⟩ callBudget).1 = .done text ∧
      rendered.sql = Text.trim text ∧
      text = "SELECT\n" ++ listText items ++ "FROM " ++ context.source ++ "\nWHERE\n" ++
        String.join ((conditionLines (argument context "conjunction")
          (itemsOf (argument context "filters"))).map (· ++ "\n")) ∧
      ∀ parts, .map parts ∈ itemsOf (argument context "filters") →
        conditionText (.map parts) =
          Text.join ", " (namesIn (columnOf parts)) ++ " " ++ comparisonText parts ∧
        (∀ name ∈ namesIn (columnOf parts), schema.has name = true) ∧
        (Refers schema parts ↔
          namesIn (columnOf parts) ≠ [] ∧ namesIn (columnOf parts) ≠ [""]) := by
  rw [create_of_mem_trees (show (_, _, filterNodes) ∈ trees by simp [trees]),
    Except.ok.injEq] at hcreate
  subst hcreate
  rcases run_of_render hrender with ⟨text, after, hrun, hsql, -⟩
  rcases filter_values rfl hbind with ⟨conditions, word, hvalues⟩
  have hargs : context.arguments = [("filters", .list conditions), ("conjunction", word)] :=
    harguments.trans hvalues
  have hconditions : itemsOf (argument context "filters") = conditions := by
    rw [argument_eq hargs]
    rfl
  have hword : argument context "conjunction" = word := by
    rw [argument_eq hargs]
    rfl
  rcases filter_selects rfl hargs hrun with ⟨schema, hinput, hhas, htext, -⟩
  refine ⟨schema, text, (typedNames schema).map (kept .bare), hinput, by rw [hrun], hsql, ?_, ?_⟩
  · rw [hconditions, hword, ← conditions_eq, htext]
    simp only [String.append_assoc]
  · rw [hconditions]
    intro parts hparts
    have hnames : ∀ name ∈ namesIn (columnOf parts), schema.has name = true :=
      hhas (.map parts) hparts
    exact ⟨conditionText_eq parts, hnames, refers_iff hnames⟩

def conditionArguments (parts : List (String × Argument)) : Keyed Argument :=
  [("filters", .list [.mapping parts])]

def conditionBound (parts : List (String × Argument)) : Bound :=
  ⟨[("filters", .list [.mapping parts]), ("conjunction", .str "AND")]⟩

def identifierSchema : Schema :=
  [⟨"ID", some "INT"⟩]

def conditionContext (parts : List (String × Argument)) : Context where
  source := "A.B.C"
  sourceLabel := "A.B.C"
  input := some identifierSchema
  datasets := []
  arguments := (conditionBound parts).values

def rowFilter : Transform :=
  transformOf filterListing filterBody filterNodes

def byIdentifier : List (String × Argument) :=
  [("column", .str "ID"), ("value", .int 1)]

theorem filter_by_identifier :
    rowFilter.bind (conditionArguments byIdentifier) none = .ok (conditionBound byIdentifier) ∧
    ∃ rendered, render rowFilter.template (conditionContext byIdentifier) = .ok rendered ∧
      rendered.sql = "SELECT\n  ID\nFROM A.B.C\nWHERE\n  ID = 1" ∧
      Refers identifierSchema [("column", .str "ID"), ("value", .int 1)] := by
  have hcreate : Transform.create filterListing filterBody = .ok rowFilter :=
    create_of_mem_trees (by simp [trees])
  have hbind : rowFilter.bind (conditionArguments byIdentifier) none =
      .ok (conditionBound byIdentifier) := by rfl
  have hrender : render rowFilter.template (conditionContext byIdentifier) =
      .ok ⟨"SELECT\n  ID\nFROM A.B.C\nWHERE\n  ID = 1", some identifierSchema⟩ :=
    eq_ok_of_toOption (by decide)
  rcases filter_refers_iff hcreate hbind rfl hrender
    with ⟨schema, text, items, hinput, -, -, -, hconditions⟩
  cases hinput
  have hrefers := hconditions [("column", .str "ID"), ("value", .int 1)] List.mem_cons_self
  exact ⟨hbind, _, hrender, rfl, hrefers.right.right.mpr (by decide)⟩

def withoutColumn : List (String × Argument) :=
  [("operator", .str ">"), ("value", .int 1)]

/-- A condition without a column has no name to check, and renders without a left-hand side. -/
theorem filter_without_column :
    rowFilter.bind (conditionArguments withoutColumn) none = .ok (conditionBound withoutColumn) ∧
    ∃ rendered, render rowFilter.template (conditionContext withoutColumn) = .ok rendered ∧
      rendered.sql = "SELECT\n  ID\nFROM A.B.C\nWHERE\n   > 1" ∧
      ¬ Refers identifierSchema [("operator", .str ">"), ("value", .int 1)] := by
  have hrender : render rowFilter.template (conditionContext withoutColumn) =
      .ok ⟨"SELECT\n  ID\nFROM A.B.C\nWHERE\n   > 1", some identifierSchema⟩ :=
    eq_ok_of_toOption (by decide)
  exact ⟨by rfl, _, hrender, rfl, fun hrefers => hrefers.given rfl⟩

end Library
end TransformChain
