import TransformChain.Proofs.Library.Columns

/-!
# Groups

What the templates select that group rows: aggregates of columns, and pivoted values.
-/

namespace TransformChain
namespace Library

open Template
open Template.Action
open Template.Function (namesIn typedNames)
open Item

section Templates

variable {scene : Scene} {calls : Calls} {text : String} {after : State}
variable {i length depth : Nat} {outer : List Frame} {declared : Schema}

def groupText (names : List Value) : String :=
  if names.isEmpty then "" else "GROUP BY " ++ (Text.join ", " (names.map Value.display) ++ "\n")

theorem yields_groupBy {before : State} {subject : String} {names : List Value}
    (hsubject : find? subject before.frames = some (.list names)) :
    Yields (exec scene calls (groupBy subject)) before text after ↔
      groupText names = text ∧ before = after := by
  unfold groupText
  cases names with
  | nil => simp [groupBy, hsubject, Value.holds]
  | cons name names =>
      simp [groupBy, hsubject, Value.holds, Operation.joined, and_comm]

/-!
## Aggregates
-/

/-- The aggregate functions of a column: one by its name, or several. -/
def functionsOf : Value → List Value
  | .str s => [.str s]
  | .list names => names
  | .map entries => Operation.keyValues entries
  | _ => []

theorem functionsOf_eq {value functions : Value} {items : List Value}
    (hfunctions : functions = if value.kind = .string then .list [value] else value)
    (hholds : functions.holds = true) (hitems : Operation.items functions = .ok items) :
    items = functionsOf value ∧ functionsOf value ≠ [] := by
  subst hfunctions
  cases value with
  | str s =>
      cases hitems
      exact ⟨rfl, List.cons_ne_nil _ _⟩
  | list names =>
      cases hitems
      exact ⟨rfl, Value.ne_nil_of_holds_list hholds⟩
  | map entries =>
      cases hitems
      refine ⟨rfl, fun hnil => Value.ne_nil_of_holds_map hholds ?_⟩
      exact List.map_eq_nil_iff.mp hnil
  | null => cases hholds
  | _ => cases hitems

def aggregated (column : String) (function : Value) : Item :=
  ⟨.computed (Text.upper function.display ++ ("(" ++ (column ++ ")"))),
    ⟨Text.cleanse (column ++ "_" ++ function.display), none⟩⟩

def aggregates (aggregation : String × Value) : List Item :=
  (functionsOf aggregation.2).map (aggregated aggregation.1)

theorem aggregateLine_adds (hmacros : scene.template.body.macros = []) {ends : Bool}
    {column : String} {function : Value} {last : Value}
    (hcol : find? "col" outer = some (.str column))
    (hlast : find? "outer" outer = some last)
    (hends : Operation.attr "last" last = .ok (.bool ends))
    (h : Yields (execAll scene calls aggregateLine)
      ⟨[("agg", function), ("loop", loopInfo i length)] :: outer, declared, depth⟩ text after) :
    Adds (aggregated column function) (ends && i + 1 == length) outer declared depth text
      after := by
  simp [aggregateLine, yields_joinedName hmacros, yields_declare hmacros, find?, Keyed.get?,
    Keyed.put, hcol, hlast, hends] at h
  rcases h with ⟨comma, ⟨-, h⟩, htext⟩
  by_cases hround : i + 1 = length
  · rw [if_pos hround] at h
    rcases h with ⟨hafter, rfl⟩
    rw [beq_iff_eq.mpr hround, Bool.and_true]
    refine adds_of_comma ends ?_ hafter
    cases ends with
    | true => simpa [← String.toList_inj, aggregated, Item.line] using htext
    | false => simpa [← String.toList_inj, aggregated, Item.line] using htext
  · rw [if_neg hround] at h
    rcases h with ⟨rfl, hafter⟩
    rw [beq_eq_false_iff_ne.mpr hround, Bool.and_false]
    rw [beq_eq_false_iff_ne.mpr hround] at htext
    exact adds_of_comma false
      (by simpa [← String.toList_inj, aggregated, Item.line] using htext) hafter

theorem aggregateLines_yields (hmacros : scene.template.body.macros = [])
    {aggregation : String × Value}
    (h : Yields (execAll scene calls aggregateLines)
      ⟨[("col", .str aggregation.1), ("aggs", aggregation.2), ("loop", loopInfo i length)] ::
        outer, declared, depth⟩ text after) :
    functionsOf aggregation.2 ≠ [] ∧ text = endedText (i + 1 == length) (aggregates aggregation) ∧
      ∃ inner, after =
        ⟨inner :: outer, declared ++ (aggregates aggregation).map Item.column, depth⟩ := by
  simp [aggregateLines, yields_abort hmacros, find?, Keyed.get?, Keyed.put] at h
  rcases h with ⟨between, ⟨functions, middle, hfunctions, hassign⟩, ⟨w, hw, hholds⟩, hlines⟩
  have hvalue : functions =
        (if aggregation.2.kind = .string then .list [aggregation.2] else aggregation.2) ∧
      middle = ⟨[("col", .str aggregation.1), ("aggs", aggregation.2),
        ("loop", loopInfo i length), ("outer", loopInfo i length)] :: outer, declared, depth⟩ := by
    by_cases hkind : aggregation.2.kind = .string
    · rw [if_pos hkind] at hfunctions ⊢
      exact ⟨hfunctions.right.symm, hfunctions.left.symm⟩
    · rw [if_neg hkind] at hfunctions ⊢
      exact ⟨hfunctions.left.symm, hfunctions.right.symm⟩
  rcases hvalue with ⟨hvalue, rfl⟩
  simp [Keyed.put] at hassign
  subst hassign
  cases hw
  rcases forItems_known rfl hlines with ⟨items, hitems⟩
  rcases functionsOf_eq hvalue hholds hitems with ⟨rfl, hne⟩
  rcases forItems_adds (i + 1 == length) (aggregated aggregation.1) (by decide) hlines
    (variable_value rfl) hitems
    (fun _ _ _ _ _ hline => aggregateLine_adds hmacros rfl rfl rfl hline) with ⟨rfl, rfl⟩
  exact ⟨hne, rfl, _, rfl⟩

theorem aggregate_selects (hmacros : scene.template.body.macros = []) {groups : List Value}
    {aggregations : List (String × Value)}
    (hargs : scene.context.arguments =
      [("group_by", .list groups), ("aggregations", .map aggregations)])
    (h : Yields (execAll scene calls aggregateNodes) scene.start text after) :
    ∃ schema, scene.context.input = some schema ∧
      (∀ name ∈ groups.map Value.display ++ aggregations.map Prod.fst, schema.has name = true) ∧
      (∀ aggregation ∈ aggregations, functionsOf aggregation.2 ≠ []) ∧
      Selects scene text after (groups.map (chosen schema) ++ aggregations.flatMap aggregates)
        ("\n" ++ groupText groups) := by
  simp [aggregateNodes, fromSource, Scene.start, Scene.globals, hargs, Keyed.put,
    yields_guard hmacros, yields_check_input hmacros, yields_getColumns hmacros, find?,
    Keyed.get?] at h
  rcases h with ⟨hholds, first, between, second, middle, source, clause,
    ⟨⟨schema, hinput, hgroups⟩, ⟨again, hagain, haggregations⟩, found, hfound, hfirst, hsecond,
      hsource, hclause⟩, rfl⟩
  rw [hinput, Option.some.injEq] at hagain hfound
  subst hagain hfound
  rcases chosenColumns_open hmacros rfl rfl rfl hfirst with ⟨rfl, rfl⟩
  rcases forEntries_yields (fun aggregation => functionsOf aggregation.2 ≠ [])
    (fun i aggregation => endedText (i + 1 == aggregations.length) (aggregates aggregation))
    (fun aggregation => (aggregates aggregation).map Item.column) (by decide) (by decide)
    (by decide) hsecond (items_entries rfl)
    (fun _ _ _ _ _ hlines => aggregateLines_yields hmacros hlines) with ⟨hnonempty, rfl, rfl⟩
  rcases (yields_groupBy rfl).mp hclause with ⟨rfl, rfl⟩
  cases hsource
  have hrows : ∀ aggregation ∈ aggregations, aggregates aggregation ≠ [] := by
    intro aggregation hmem hnil
    exact hnonempty aggregation hmem (List.map_eq_nil_iff.mp hnil)
  have hne : aggregations.flatMap aggregates ≠ [] := by
    rcases List.exists_mem_of_ne_nil _ (Value.ne_nil_of_holds_map hholds) with ⟨aggregation, hmem⟩
    intro hnil
    exact hrows aggregation hmem (List.flatMap_eq_nil_iff.mp hnil aggregation hmem)
  refine ⟨schema, hinput, ?_, hnonempty, ?_, ?_⟩
  · intro name hname
    rcases List.mem_append.mp hname with hname | hname
    · exact hgroups name hname
    · exact haggregations name hname
  · rw [pieces_endedText aggregations 0 (Nat.zero_add _) hrows, listText_append hne]
    simp [String.append_assoc]
  · simp [List.map_flatMap]

/-!
## Pivots
-/

structure Pivot where
  key : Value
  value : Value
  method : Value

def Pivot.column (pivot : Pivot) (wanted : Value) : Item :=
  ⟨.computed (Text.upper pivot.method.display ++ ("(CASE WHEN " ++ (pivot.key.display ++
      (" = " ++ (Literal.quote wanted ++ (" THEN " ++ (pivot.value.display ++ " END)"))))))),
    ⟨Text.cleanse (pivot.value.display ++ "_" ++ wanted.display), none⟩⟩

theorem pivotLine_adds (hmacros : scene.template.body.macros = []) {pivot : Pivot}
    {wanted : Value}
    (hkey : find? "pivot_column" outer = some pivot.key)
    (hvalue : find? "value_column" outer = some pivot.value)
    (hmethod : find? "agg_method" outer = some pivot.method)
    (h : Yields (execAll scene calls pivotLine)
      ⟨[("val", wanted), ("loop", loopInfo i length)] :: outer, declared, depth⟩ text after) :
    Adds (pivot.column wanted) (true && i + 1 == length) outer declared depth text after := by
  simp [pivotLine, yields_joinedName hmacros, yields_declare hmacros, yields_quote hmacros, find?,
    Keyed.get?, Keyed.put, hkey, hvalue, hmethod] at h
  rcases h with ⟨last, ⟨-, hlast⟩, rfl⟩
  exact loopEnd_adds rfl hlast (by simp [← String.toList_inj, Pivot.column, Item.line])

theorem pivot_selects (hmacros : scene.template.body.macros = []) {pivot : Pivot}
    {dimensions wanted : List Value}
    (hargs : scene.context.arguments =
      [("dimensions", .list dimensions), ("pivot_column", pivot.key),
        ("value_column", pivot.value), ("agg_method", pivot.method),
        ("list_of_vals", .list wanted)])
    (h : Yields (execAll scene calls pivotNodes) scene.start text after) :
    ∃ schema, scene.context.input = some schema ∧
      (∀ name ∈ (dimensions ++ [pivot.key, pivot.value]).map Value.display,
        schema.has name = true) ∧
      Selects scene text after (dimensions.map (chosen schema) ++ wanted.map pivot.column)
        ("\n" ++ groupText dimensions) := by
  simp [pivotNodes, fromSource, Scene.start, Scene.globals, hargs, Keyed.put,
    yields_guard hmacros, yields_check_input hmacros, yields_getColumns hmacros, find?,
    Keyed.get?] at h
  rcases h with ⟨hholds, first, between, second, middle, source, clause,
    ⟨⟨schema, hinput, hdimensions⟩, ⟨again, hagain, hcolumns⟩, found, hfound, hfirst, hsecond,
      hsource, hclause⟩, rfl⟩
  rw [hinput, Option.some.injEq] at hagain hfound
  subst hagain hfound
  rcases chosenColumns_open hmacros rfl rfl rfl hfirst with ⟨rfl, rfl⟩
  rcases forItems_adds true pivot.column (by decide) hsecond (variable_value rfl) rfl
    (fun _ _ _ _ _ hline => pivotLine_adds hmacros rfl rfl rfl hline) with ⟨rfl, rfl⟩
  rcases (yields_groupBy rfl).mp hclause with ⟨rfl, rfl⟩
  cases hsource
  refine ⟨schema, hinput, ?_, ?_, ?_⟩
  · intro name hname
    rw [List.map_append] at hname
    rcases List.mem_append.mp hname with hname | hname
    · exact hdimensions name hname
    · exact hcolumns name hname
  · rw [listText_append_map (Value.ne_nil_of_holds_list hholds)]
    simp [endedText, String.append_assoc]
  · simp

end Templates

end Library
end TransformChain
