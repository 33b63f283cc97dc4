import TransformChain.Proofs.Library.Arguments
import TransformChain.Proofs.Library.Dates
import TransformChain.Proofs.Library.Grouping
import TransformChain.Proofs.Library.Joining

/-!
# Selections and clauses

The items that each transform of the library selects by its description, and what its template
writes after the source: conditions, directions, pairs of columns and the columns to group by.  Each
of the loops behind the source separates what it writes in its own way, in front of all rounds but
the first, behind all but the last, or both; the pieces join up to lists.
-/

namespace TransformChain
namespace Library

open Template
open Template.Action
open Template.Function (typedNames)

/-!
## Separators
-/

theorem pieces_congr {first second : Nat → α → String} (h : ∀ i x, first i x = second i x) (i : Nat)
    (xs : List α) : pieces first i xs = pieces second i xs := by
  rw [show first = second from funext fun i => funext (h i)]

theorem pieces_separated (lead tail : String) (piece : α → String) {length : Nat} (xs : List α)
    (i : Nat) (hne : xs ≠ []) (hlength : i + xs.length = length) :
    pieces (fun i x => (if i == 0 then "" else lead) ++
        (piece x ++ if i + 1 == length then "" else tail)) i xs =
      (if i == 0 then "" else lead) ++ Text.join (tail ++ lead) (xs.map piece) := by
  induction xs generalizing i with
  | nil => exact absurd rfl hne
  | cons x rest ih =>
      rw [List.length_cons] at hlength
      cases rest with
      | nil =>
          have hlast : (i + 1 == length) = true := by simpa using hlength
          simp [pieces, hlast, Text.join]
      | cons y others =>
          have hmore : (i + 1 == length) = false := by
            simp only [List.length_cons] at hlength
            simp only [beq_eq_false_iff_ne]
            omega
          have hlater : (i + 1 == 0) = false := rfl
          rw [pieces, ih (i + 1) (List.cons_ne_nil y others) (by omega), hmore, hlater]
          simp [Text.join, String.append_assoc]

theorem pieces_eq_join {lead tail separator : String} (hseparator : tail ++ lead = separator)
    (piece : α → String) (xs : List α) :
    pieces (fun i x => (if i == 0 then "" else lead) ++
        (piece x ++ if i + 1 == xs.length then "" else tail)) 0 xs =
      Text.join separator (xs.map piece) := by
  cases xs with
  | nil => rfl
  | cons x rest =>
      rw [pieces_separated lead tail piece _ 0 (List.cons_ne_nil x rest) (Nat.zero_add _),
        hseparator]
      exact String.empty_append

/-!
## Lists of clauses
-/

def directionText (entry : String × Value) : String :=
  entry.1 ++ " " ++ Text.upper entry.2.display

theorem directions_eq (directions : List (String × Value)) :
    pieces (directionPiece directions.length) 0 directions =
      Text.join ", " (directions.map directionText) := by
  rw [← pieces_eq_join (String.append_empty (s := ", ")) directionText directions]
  apply pieces_congr
  intro i entry
  simp [directionPiece, directionText, String.append_assoc]

def pairText (pair : String × Value) : String :=
  "l." ++ pair.1 ++ " = r." ++ pair.2.display

theorem pairs_eq (pairs : List (String × Value)) :
    pieces (pairPiece pairs.length) 0 pairs = Text.join " AND " (pairs.map pairText) := by
  have hseparator : " " ++ "AND " = " AND " := by decide
  rw [← pieces_eq_join hseparator pairText pairs]
  apply pieces_congr
  intro i pair
  simp [pairPiece, pairText, String.append_assoc]

/-- The conditions on lines of their own, the later ones behind the word that connects them. -/
def conditionLines (word : Value) : List Value → List String
  | [] => []
  | first :: rest =>
      ("  " ++ conditionText first) ::
        rest.map fun condition => "  " ++ word.display ++ " " ++ conditionText condition

theorem laterConditions_eq (word : Value) (conditions : List Value) (i : Nat) :
    pieces (conditionPiece word) (i + 1) conditions =
      String.join (conditions.map fun condition =>
        "  " ++ word.display ++ " " ++ conditionText condition ++ "\n") := by
  induction conditions generalizing i with
  | nil => rfl
  | cons condition rest ih =>
      rw [pieces, ih, List.map_cons, String.join_cons]
      simp [conditionPiece, conjunctionText, String.append_assoc]

theorem conditions_eq (word : Value) (conditions : List Value) :
    pieces (conditionPiece word) 0 conditions =
      String.join ((conditionLines word conditions).map (· ++ "\n")) := by
  cases conditions with
  | nil => rfl
  | cons first rest =>
      rw [pieces, laterConditions_eq, conditionLines, List.map_cons, String.join_cons, List.map_map]
      simp [conditionPiece, conjunctionText, String.append_assoc, Function.comp_def]

def bareNames (items : List Item) : List String :=
  (items.filter fun item => item.lead == .bare).map fun item => item.column.name

def groupClause (names : List String) : String :=
  if names.isEmpty then "" else "GROUP BY " ++ Text.join ", " names ++ "\n"

theorem groupText_eq (names : List Value) :
    groupText names = groupClause (names.map Value.display) := by
  unfold groupText groupClause
  cases names <;> simp [String.append_assoc]

theorem bareNames_append (first second : List Item) :
    bareNames (first ++ second) = bareNames first ++ bareNames second := by
  simp [bareNames]

theorem bareNames_chosen (schema : Schema) (names : List Value) :
    bareNames (names.map (chosen schema)) = names.map Value.display := by
  have hbare : ∀ item ∈ names.map (chosen schema), (item.lead == .bare) = true := by
    intro item hitem
    rcases List.mem_map.mp hitem with ⟨name, -, rfl⟩
    rfl
  rw [bareNames, List.filter_eq_self.mpr hbare, List.map_map]
  rfl

theorem bareNames_computed {items : List Item}
    (h : ∀ item ∈ items, ∃ expression, item.lead = .computed expression) :
    bareNames items = [] := by
  rw [bareNames, List.map_eq_nil_iff, List.filter_eq_nil_iff]
  intro item hitem
  rcases h item hitem with ⟨expression, hlead⟩
  rw [hlead]
  exact Bool.false_ne_true

theorem bareNames_aggregates (aggregations : List (String × Value)) :
    bareNames (aggregations.flatMap aggregates) = [] := by
  apply bareNames_computed
  intro item hitem
  rcases List.mem_flatMap.mp hitem with ⟨aggregation, -, hitem⟩
  rcases List.mem_map.mp hitem with ⟨function, -, rfl⟩
  exact ⟨_, rfl⟩

theorem bareNames_pivoted (pivot : Pivot) (wanted : List Value) :
    bareNames (wanted.map pivot.column) = [] := by
  apply bareNames_computed
  intro item hitem
  rcases List.mem_map.mp hitem with ⟨value, -, rfl⟩
  exact ⟨_, rfl⟩

/-!
## What is selected
-/

/-- The dataset that a join names: the input by its own text, or one of the other datasets. -/
def partnerOf (context : Context) (relation : String) : Option SideDataset :=
  if relation = context.source then some ⟨context.sourceLabel, context.input⟩
  else Keyed.get? relation context.datasets

theorem partnerOf_of_schemaOf {scene : Scene} {relation label : String} {schema : Schema}
    (h : Function.schemaOf scene (some (.str relation)) = .ok (schema, label)) :
    partnerOf scene.context relation = some ⟨label, some schema⟩ := by
  unfold partnerOf
  by_cases hsource : relation = scene.context.source
  · rw [if_pos hsource]
    simp only [Function.schemaOf, Function.asked, if_pos hsource] at h
    cases hinput : scene.context.input with
    | none =>
        rw [hinput] at h
        cases h
    | some found =>
        rw [hinput] at h
        cases h
        rfl
  · rw [if_neg hsource]
    simp only [Function.schemaOf, Function.asked, if_neg hsource, Function.sideDataset] at h
    cases hside : Keyed.get? relation scene.context.datasets with
    | none =>
        rw [hside] at h
        cases h
    | some side =>
        rcases side with ⟨found, columns⟩
        rw [hside] at h
        cases columns with
        | none => cases h
        | some columns =>
            cases h
            rfl

/-- The items that a transform selects, each with its expression, by the description of the
transform: those that keep columns of the input, change them in place or put new ones behind them. -/
def selectionOf (transform : String) (context : Context) : List Item :=
  let schema := context.input.getD []
  let given := argument context
  match transform with
  | "filter" | "order" => (typedNames schema).map (kept .bare)
  | "drop_columns" =>
      (leftNames schema (given "include_cols") (given "exclude_cols")).map (chosen schema)
  | "rename" => (typedNames schema).map (changed (entriesOf (given "renames")) renamed)
  | "cast" => castItems schema (entriesOf (given "casts")) (given "overwrite_columns")
  | "datetrunc" => truncatedItems schema (entriesOf (given "dates")) (given "overwrite_columns")
  | "dateadd" =>
      (Shift.mk (given "offset") (given "interval_type")).items schema (given "date")
        (given "alias") (given "overwrite_columns")
  | "concat" =>
      (typedNames schema).map (kept .bare) ++
        [concatenated (itemsOf (given "concat_list")) (given "alias")]
  | "aggregate" =>
      (itemsOf (given "group_by")).map (chosen schema) ++
        (entriesOf (given "aggregations")).flatMap aggregates
  | "pivot" =>
      (itemsOf (given "dimensions")).map (chosen schema) ++
        (itemsOf (given "list_of_vals")).map
          (Pivot.mk (given "pivot_column") (given "value_column") (given "agg_method")).column
  | "join" =>
      match partnerOf context (given "join_table").display with
      | some partner =>
          (typedNames schema).map (kept .left) ++
            (typedNames (partner.columns.getD [])).map
              (joined (joinPrefix (given "join_prefix") partner.label))
      | none => []
  | _ => []

/-!
## All transforms
-/

/-- What stands behind the source, by the description of the transform.  The select list decides
what is grouped by. -/
def clauseOf (transform : String) (context : Context) (items : List Item) : String :=
  let given := argument context
  match transform with
  | "filter" =>
      "\nWHERE\n" ++ String.join
        ((conditionLines (given "conjunction") (itemsOf (given "filters"))).map (· ++ "\n"))
  | "order" => "\nORDER BY " ++ Text.join ", " ((entriesOf (given "order_by")).map directionText)
  | "join" =>
      " l\n" ++ Text.upper (given "join_type").display ++ " JOIN " ++
        (given "join_table").display ++ " r\n  ON " ++
        Text.join " AND " ((entriesOf (given "join_columns")).map pairText)
  | "aggregate" | "pivot" => "\n" ++ groupClause (bareNames items)
  | _ => "\n"

def groupsOf (transform : String) (context : Context) : List Value :=
  match transform with
  | "aggregate" => itemsOf (argument context "group_by")
  | "pivot" => itemsOf (argument context "dimensions")
  | _ => []

structure SelectsClause (transform : String) (scene : Scene) (text : String) (after : State) :
    Prop where
  known : ∃ schema, scene.context.input = some schema
  selects : Selects scene text after (selectionOf transform scene.context)
    (clauseOf transform scene.context (selectionOf transform scene.context))
  groups : transform ∈ ["aggregate", "pivot"] →
    bareNames (selectionOf transform scene.context) =
      (groupsOf transform scene.context).map Value.display

section Transforms

variable {transform text : String} {scene : Scene} {after : State} {schema : Schema}
variable {items : List Item}

theorem Selects.ungrouped {rest : String} (h : Selects scene text after items rest)
    (hinput : scene.context.input = some schema)
    (hitems : selectionOf transform scene.context = items)
    (hclause : clauseOf transform scene.context items = rest)
    (hname : transform ∉ ["aggregate", "pivot"]) : SelectsClause transform scene text after := by
  constructor
  · exact ⟨schema, hinput⟩
  · rw [hitems, hclause]
    exact h
  · intro hmem
    exact absurd hmem hname

theorem Selects.grouped {names : List Value}
    (h : Selects scene text after items ("\n" ++ groupText names))
    (hinput : scene.context.input = some schema)
    (hitems : selectionOf transform scene.context = items)
    (hclause : clauseOf transform scene.context items = "\n" ++ groupClause (bareNames items))
    (hnames : groupsOf transform scene.context = names)
    (hbare : bareNames items = names.map Value.display) :
    SelectsClause transform scene text after := by
  constructor
  · exact ⟨schema, hinput⟩
  · rw [hitems, hclause, hbare, ← groupText_eq]
    exact h
  · intro _
    rw [hitems, hnames, hbare]

theorem join_selectsClause {args : Keyed Argument} {ns : Option Namespace} {bound : Bound}
    (hbind : (transformOf joinListing joinBody joinNodes).bind args ns = .ok bound)
    (hmacros : scene.template.body.macros = [])
    (harguments : scene.context.arguments = bound.values) {calls : Calls}
    (h : Yields (execAll scene calls joinNodes) scene.start text after) :
    SelectsClause joinListing.name scene text after := by
  rcases join_values rfl hbind with ⟨table, pairs, kind, given, hvalues⟩
  have hparameters : ∀ p ∈ joinListing.parameters, p.name = "join_table" →
      p.shape = .dataset ∧ p.required = true := by decide
  rcases Transform.exists_dataset_of_get? hparameters (Transform.bindParameters_of_bind hbind)
    (congrArg (Keyed.get? "join_table") hvalues) with ⟨d, -, rfl⟩
  have hargs := harguments.trans hvalues
  rcases join_selects hmacros hargs h
    with ⟨schema, partner, label, hinput, hpartner, -, -, -, hselects⟩
  have htable : argument scene.context "join_table" = .str d.relation :=
    argument_eq hargs "join_table"
  have hgiven : argument scene.context "join_prefix" = given := argument_eq hargs "join_prefix"
  apply hselects.ungrouped hinput _ _ (by decide)
  · simp only [selectionOf, joinListing, htable, hgiven, Value.display_str, hinput,
      partnerOf_of_schemaOf hpartner, Option.getD_some]
  · rw [joinText, pairs_eq]
    simp only [clauseOf, argument, harguments, hvalues, String.append_assoc]
    rfl

theorem selectsClause_of_mem_trees {listing : Listing} {body : String} {nodes : List Node}
    (hmem : (listing, body, nodes) ∈ trees) {args : Keyed Argument} {ns : Option Namespace}
    {bound : Bound} (hbind : (transformOf listing body nodes).bind args ns = .ok bound)
    (hmacros : scene.template.body.macros = [])
    (harguments : scene.context.arguments = bound.values) {calls : Calls}
    (h : Yields (execAll scene calls nodes) scene.start text after) :
    SelectsClause listing.name scene text after := by
  simp only [trees, List.mem_cons, List.not_mem_nil, or_false, Prod.mk.injEq] at hmem
  rcases hmem with hmem | hmem | hmem | hmem | hmem | hmem | hmem | hmem | hmem | hmem | hmem
  all_goals rcases hmem with ⟨rfl, rfl, rfl⟩
  · rcases cast_values rfl hbind with ⟨casts, overwrite, hvalues⟩
    rcases cast_selects hmacros (harguments.trans hvalues) h with ⟨schema, hinput, -, hselects⟩
    apply hselects.ungrouped hinput _ rfl (by decide)
    simp only [selectionOf, argument, harguments, hvalues, hinput]
    rfl
  · rcases filter_values rfl hbind with ⟨conditions, word, hvalues⟩
    rcases filter_selects hmacros (harguments.trans hvalues) h with ⟨schema, hinput, -, hselects⟩
    apply hselects.ungrouped hinput _ _ (by decide)
    · simp only [selectionOf, hinput]
      rfl
    · rw [conditions_eq]
      simp only [clauseOf, argument, harguments, hvalues]
      rfl
  · rcases dropColumns_values rfl hbind with ⟨included, excluded, hincluded, hvalues⟩
    rcases dropColumns_selects hmacros hincluded (harguments.trans hvalues) h
      with ⟨schema, hinput, -, hselects⟩
    apply hselects.ungrouped hinput _ rfl (by decide)
    simp only [selectionOf, argument, harguments, hvalues, hinput]
    rfl
  · rcases rename_values rfl hbind with ⟨renames, hvalues⟩
    rcases rename_selects hmacros (harguments.trans hvalues) h with ⟨schema, hinput, -, hselects⟩
    apply hselects.ungrouped hinput _ rfl (by decide)
    simp only [selectionOf, argument, harguments, hvalues, hinput]
    rfl
  · rcases concat_values rfl hbind with ⟨parts, given, hvalues⟩
    rcases concat_selects hmacros (harguments.trans hvalues) h with ⟨schema, hinput, hselects⟩
    apply hselects.ungrouped hinput _ rfl (by decide)
    simp only [selectionOf, argument, harguments, hvalues, hinput]
    rfl
  · rcases datetrunc_values rfl hbind with ⟨dates, overwrite, hvalues⟩
    rcases datetrunc_selects hmacros (harguments.trans hvalues) h
      with ⟨schema, hinput, -, hselects⟩
    apply hselects.ungrouped hinput _ rfl (by decide)
    simp only [selectionOf, argument, harguments, hvalues, hinput]
    rfl
  · rcases dateadd_values rfl hbind with ⟨date, offset, unit, given, overwrite, hvalues⟩
    have hshift : scene.context.arguments =
        [("date", date), ("offset", (Shift.mk offset unit).offset),
          ("interval_type", (Shift.mk offset unit).unit), ("alias", given),
          ("overwrite_columns", overwrite)] := harguments.trans hvalues
    rcases dateadd_selects hmacros hshift h with ⟨schema, hinput, -, hselects⟩
    apply hselects.ungrouped hinput _ rfl (by decide)
    simp only [selectionOf, argument, harguments, hvalues, hinput]
    rfl
  · rcases aggregate_values rfl hbind with ⟨groups, aggregations, hvalues⟩
    rcases aggregate_selects hmacros (harguments.trans hvalues) h
      with ⟨schema, hinput, -, -, hselects⟩
    apply hselects.grouped hinput _ rfl _ _
    · simp only [selectionOf, argument, harguments, hvalues, hinput]
      rfl
    · simp only [groupsOf, argument, harguments, hvalues]
      rfl
    · rw [bareNames_append, bareNames_chosen, bareNames_aggregates, List.append_nil]
  · rcases pivot_values rfl hbind with ⟨dimensions, key, value, method, wanted, hvalues⟩
    have hpivot : scene.context.arguments =
        [("dimensions", .list dimensions), ("pivot_column", (Pivot.mk key value method).key),
          ("value_column", (Pivot.mk key value method).value),
          ("agg_method", (Pivot.mk key value method).method), ("list_of_vals", .list wanted)] :=
      harguments.trans hvalues
    rcases pivot_selects hmacros hpivot h with ⟨schema, hinput, -, hselects⟩
    apply hselects.grouped hinput _ rfl _ _
    · simp only [selectionOf, argument, harguments, hvalues, hinput]
      rfl
    · simp only [groupsOf, argument, harguments, hvalues]
      rfl
    · rw [bareNames_append, bareNames_chosen, bareNames_pivoted, List.append_nil]
  · exact join_selectsClause hbind hmacros harguments h
  · rcases order_values rfl hbind with ⟨directions, hvalues⟩
    rcases order_selects hmacros (harguments.trans hvalues) h with ⟨schema, hinput, -, hselects⟩
    apply hselects.ungrouped hinput _ _ (by decide)
    · simp only [selectionOf, hinput]
      rfl
    · rw [directions_eq]
      simp only [clauseOf, argument, harguments, hvalues]
      rfl

end Transforms

end Library
end TransformChain
