import TransformChain.Proofs.Library.Selection

/-!
# Rows and columns

What the templates select that keep the columns of the input, choose among them, rename them or add
one: sorting, filtering, dropping, renaming and concatenating.
-/

namespace TransformChain
namespace Library

open Template
open Template.Action
open Template.Function (namesIn typeIn typedNames schemaOf)
open Item

structure Selects (scene : Scene) (text : String) (after : State) (items : List Item)
    (rest : String) : Prop where
  text_eq : text = "SELECT\n" ++ listText items ++ "FROM " ++ scene.context.source ++ rest
  declared_eq : after.declared = items.map Item.column

section Templates

variable {scene : Scene} {calls : Calls} {text : String} {after : State}

/-!
## Sorting
-/

def directionPiece (length i : Nat) (entry : String × Value) : String :=
  entry.1 ++ (" " ++ (Text.upper entry.2.display ++ if i + 1 == length then "" else ", "))

theorem directions_yields {directions : List (String × Value)} {frame : Frame}
    {declared : Schema} {depth : Nat}
    (h : Yields (exec scene calls
      (forEntries "col" "direction" (askItself (.var "order_by") "items") directionEntry))
      ⟨[("order_by", .map directions) :: frame], declared, depth⟩ text after) :
    text = pieces (directionPiece directions.length) 0 directions ∧
      after = ⟨[("order_by", .map directions) :: frame], declared, depth⟩ := by
  rcases forEntries_yields (fun _ => True) (directionPiece directions.length) (fun _ => [])
    (by decide) (by decide) (by decide) h (items_entries rfl) (by
      intro i entry declared text after hentry
      simp [directionEntry, find?, Keyed.get?] at hentry
      rcases hentry with ⟨rfl, rfl⟩
      simp [directionPiece]) with ⟨-, rfl, rfl⟩
  simp

theorem order_selects (hmacros : scene.template.body.macros = [])
    {directions : List (String × Value)}
    (hargs : scene.context.arguments = [("order_by", .map directions)])
    (h : Yields (execAll scene calls orderNodes) scene.start text after) :
    ∃ schema, scene.context.input = some schema ∧
      (∀ name ∈ directions.map Prod.fst, schema.has name = true) ∧
      Selects scene text after ((typedNames schema).map (kept .bare))
        ("\nORDER BY " ++ pieces (directionPiece directions.length) 0 directions) := by
  simp [orderNodes, Scene.start, Scene.globals, hargs, Keyed.put, yields_guard hmacros,
    yields_check_input hmacros, find?, Keyed.get?] at h
  rcases h with ⟨-, list, between, source, clause,
    ⟨⟨schema, hinput, hhas⟩, hlist, hsource, hclause⟩, rfl⟩
  refine ⟨schema, hinput, hhas, ?_⟩
  rcases keptColumns_closed hmacros hlist (inputColumns_entries hmacros hinput) with ⟨rfl, rfl⟩
  rcases directions_yields hclause with ⟨rfl, rfl⟩
  cases hsource
  refine ⟨?_, rfl⟩
  simp [String.append_assoc]

/-!
## Filtering
-/

def conjunctionText (conjunction : Value) (i : Nat) : String :=
  if i == 0 then "" else conjunction.display ++ " "

theorem conjunction_yields {before : State} {i length : Nat} {word : Value}
    (hloop : find? "loop" before.frames = some (loopInfo i length))
    (hword : find? "conjunction" before.frames = some word)
    (h : Yields (exec scene calls conjunction) before text after) :
    conjunctionText word i = text ∧ before = after := by
  simp [conjunction, hloop, hword] at h
  unfold conjunctionText
  by_cases hfirst : i = 0
  · simp [hfirst] at h ⊢
    exact h.symm
  · simp [hfirst] at h ⊢
    exact ⟨h.right, h.left⟩

/-- The operator of a condition, which may be left out. -/
def operatorText (operator : Value) : String :=
  (if operator.isNull then .str "=" else operator).display

/-- A condition: a mapping by its parts, anything else as it is. -/
def conditionText : Value → String
  | .map parts =>
      ((Keyed.get? "column" parts).getD .null).display ++ " " ++
        operatorText ((Keyed.get? "operator" parts).getD .null) ++ " " ++
        ((Keyed.get? "value" parts).getD .null).display
  | condition => condition.display

def conditionPiece (conjunction : Value) (i : Nat) (condition : Value) : String :=
  "  " ++ (conjunctionText conjunction i ++ (conditionText condition ++ "\n"))

def conditionNames : Value → List String
  | .map parts => namesIn ((Keyed.get? "column" parts).getD .null)
  | _ => []

theorem conditions_yields (hmacros : scene.template.body.macros = []) {schema : Schema}
    (hinput : scene.context.input = some schema) {conditions : List Value} {conjunction : Value}
    {frame : Frame} {declared : Schema} {depth : Nat}
    (h : Yields (exec scene calls (forItems "f" (.var "filters") conditionLine))
      ⟨[("filters", .list conditions) :: ("conjunction", conjunction) :: frame], declared, depth⟩
      text after) :
    (∀ condition ∈ conditions, ∀ name ∈ conditionNames condition, schema.has name = true) ∧
      text = pieces (conditionPiece conjunction) 0 conditions ∧
      after = ⟨[("filters", .list conditions) :: ("conjunction", conjunction) :: frame],
        declared, depth⟩ := by
  rcases forItems_yields
    (fun condition => ∀ name ∈ conditionNames condition, schema.has name = true)
    (conditionPiece conjunction) (fun _ => []) (by decide) h (by
      intro v between hv
      simp [find?, Keyed.get?] at hv
      exact ⟨hv.left.symm, hv.right.symm⟩) rfl (by
      intro i condition declared text after hline
      cases condition with
      | map parts =>
          simp [conditionLine, builtCondition, find?, Keyed.get?, Value.kind,
            yields_check_input hmacros] at hline
          rcases hline with ⟨⟨found, hfound, hhas⟩, first, column, operator, subject,
            ⟨hfirst, hcolumn, hoperator, hsubject⟩, rfl⟩
          rw [hinput] at hfound
          cases hfound
          rcases conjunction_yields rfl rfl hfirst with ⟨rfl, rfl⟩
          simp [find?, Keyed.get?] at hcolumn hoperator hsubject
          subst hcolumn hoperator hsubject
          refine ⟨hhas, ?_, _, by rw [List.append_nil]⟩
          simp [conditionPiece, conditionText, operatorText, String.append_assoc]
      | _ =>
          simp [conditionLine, find?, Keyed.get?, Value.kind] at hline
          rcases hline with ⟨first, hfirst, subject, hsubject, rfl⟩
          rcases conjunction_yields rfl rfl hfirst with ⟨rfl, rfl⟩
          cases hsubject
          simp [conditionNames, conditionPiece, conditionText]) with ⟨hP, rfl, rfl⟩
  simpa using hP

theorem filter_selects (hmacros : scene.template.body.macros = []) {conditions : List Value}
    {word : Value}
    (hargs : scene.context.arguments = [("filters", .list conditions), ("conjunction", word)])
    (h : Yields (execAll scene calls filterNodes) scene.start text after) :
    ∃ schema, scene.context.input = some schema ∧
      (∀ condition ∈ conditions, ∀ name ∈ conditionNames condition, schema.has name = true) ∧
      Selects scene text after ((typedNames schema).map (kept .bare))
        ("\nWHERE\n" ++ pieces (conditionPiece word) 0 conditions) := by
  simp [filterNodes, Scene.start, Scene.globals, hargs, Keyed.put, yields_guard hmacros,
    find?, Keyed.get?] at h
  rcases h with ⟨-, list, between, source, lines, ⟨hlist, hsource, hlines⟩, rfl⟩
  rcases inputColumns_known hmacros hlist with ⟨schema, hinput⟩
  rcases keptColumns_closed hmacros hlist (inputColumns_entries hmacros hinput) with ⟨rfl, rfl⟩
  rcases conditions_yields hmacros hinput hlines with ⟨hhas, rfl, rfl⟩
  cases hsource
  refine ⟨schema, hinput, hhas, ?_, rfl⟩
  simp [String.append_assoc]

/-!
## Renaming
-/

def renamed (entry : String × Value) (name : Value) : Item :=
  ⟨.computed entry.1, ⟨name.display, typeIn (some entry.2)⟩⟩

theorem renameLine_adds (hmacros : scene.template.body.macros = [])
    {renames : List (String × Value)} {entry : String × Value} {name : Value}
    (hname : Keyed.get? entry.1 renames = some name) {outer : List Frame} {declared : Schema}
    {i length depth : Nat} (hrenames : find? "renames" outer = some (.map renames))
    (h : Yields (execAll scene calls renameLine)
      ⟨[("col", .str entry.1), ("col_type", entry.2), ("loop", loopInfo i length)] :: outer,
        declared, depth⟩ text after) :
    Adds (renamed entry name) (true && i + 1 == length) outer declared depth text after := by
  simp [renameLine, yields_declare hmacros, find?, Keyed.get?, Operation.index, hrenames,
    hname] at h
  rcases h with ⟨-, last, hlast, rfl⟩
  exact loopEnd_adds rfl hlast (by simp [renamed, Item.line, String.append_assoc])

theorem rename_selects (hmacros : scene.template.body.macros = [])
    {renames : List (String × Value)}
    (hargs : scene.context.arguments = [("renames", .map renames)])
    (h : Yields (execAll scene calls renameNodes) scene.start text after) :
    ∃ schema, scene.context.input = some schema ∧
      (∀ name ∈ renames.map Prod.fst, schema.has name = true) ∧
      Selects scene text after ((typedNames schema).map (changed renames renamed)) "\n" := by
  simp [renameNodes, fromSource, Scene.start, Scene.globals, hargs, Keyed.put,
    yields_guard hmacros, yields_check_input hmacros, find?, Keyed.get?] at h
  rcases h with ⟨-, list, source, ⟨⟨schema, hinput, hhas⟩, hlist, hsource⟩, rfl⟩
  rcases changedColumns_closed hmacros (by decide) (by decide) (by decide) rfl hlist
    (inputColumns_entries hmacros hinput)
    (fun _ _ _ _ _ _ hname hline => renameLine_adds hmacros hname rfl hline) with ⟨rfl, rfl⟩
  cases hsource
  refine ⟨schema, hinput, hhas, ?_, rfl⟩
  simp [String.append_assoc]

/-!
## Choosing
-/

/-- The names of the columns that are left: the included ones, or all but the excluded ones. -/
def leftNames (schema : Schema) (included excluded : Value) : List Value :=
  match included with
  | .list (name :: names) => name :: names
  | _ => (Function.exceptNames schema (namesIn excluded)).map .str

theorem dropColumns_selects (hmacros : scene.template.body.macros = []) {included excluded : Value}
    (hincluded : included = .null ∨ ∃ names, included = .list names)
    (hargs : scene.context.arguments = [("include_cols", included), ("exclude_cols", excluded)])
    (h : Yields (execAll scene calls dropColumnsNodes) scene.start text after) :
    ∃ schema, scene.context.input = some schema ∧
      (∀ name ∈ namesIn (if included.holds then included else excluded), schema.has name = true) ∧
      Selects scene text after ((leftNames schema included excluded).map (chosen schema))
        "\n" := by
  simp [dropColumnsNodes, fromSource, Scene.start, Scene.globals, hargs, Keyed.put,
    yields_exclusive hmacros, yields_guard hmacros, yields_check_input hmacros,
    yields_getColumns hmacros, yields_columnsExcept hmacros, yields_abort hmacros, find?,
    Keyed.get?] at h
  rcases h with ⟨-, first, between, typed, list, source, ⟨hkeep, -, ⟨found, hfound, htyped⟩, hlist,
    hsource⟩, rfl⟩
  have hbranch : ∃ schema keep, scene.context.input = some schema ∧
      (∀ name ∈ namesIn (if included.holds then included else excluded),
        schema.has name = true) ∧
      first = "" ∧ Operation.items keep = .ok (leftNames schema included excluded) ∧
      between = ⟨[[("include_cols", included), ("exclude_cols", excluded),
        ("source_table", .str scene.context.source), ("keep", keep)]], [], 0⟩ := by
    cases hholds : included.holds with
    | true =>
        simp only [hholds, if_true] at hkeep
        rcases hkeep with ⟨⟨schema, hinput, hhas, hfirst⟩, hbetween⟩
        refine ⟨schema, included, hinput, by simpa using hhas, hfirst, ?_, hbetween⟩
        rcases hincluded with rfl | ⟨names, rfl⟩
        · cases hholds
        · cases names with
          | nil => cases hholds
          | cons name names => rfl
    | false =>
        simp only [hholds, Bool.false_eq_true, if_false] at hkeep
        rcases hkeep with ⟨-, ⟨schema, hinput, hhas, hfirst⟩, again, hagain, hbetween⟩
        rw [hinput] at hagain
        cases hagain
        refine ⟨schema, _, hinput, by simpa using hhas, hfirst, ?_, hbetween⟩
        rcases hincluded with rfl | ⟨names, rfl⟩
        · rfl
        · cases names with
          | nil => rfl
          | cons name names => cases hholds
  rcases hbranch with ⟨schema, keep, hinput, hhas, rfl, hnames, rfl⟩
  rw [hinput, Option.some.injEq] at hfound
  subst hfound
  simp [Keyed.put] at htyped
  subst htyped
  rcases chosenColumns_closed hmacros rfl hnames rfl hlist with ⟨rfl, rfl⟩
  cases hsource
  refine ⟨schema, hinput, hhas, ?_, rfl⟩
  simp [String.append_assoc]

/-!
## Concatenating
-/

def concatenated (parts : List Value) (given : Value) : Item :=
  ⟨.computed ("CONCAT(" ++ Text.join ", " (parts.map Value.display) ++ ")"),
    ⟨(givenValue given ("CONCAT_" ++ Text.join "_" (parts.map Value.display))).display,
      some "STRING"⟩⟩

theorem concat_selects (hmacros : scene.template.body.macros = []) {parts : List Value}
    {given : Value}
    (hargs : scene.context.arguments = [("concat_list", .list parts), ("alias", given)])
    (h : Yields (execAll scene calls concatNodes) scene.start text after) :
    ∃ schema, scene.context.input = some schema ∧
      Selects scene text after
        ((typedNames schema).map (kept .bare) ++ [concatenated parts given]) "\n" := by
  simp [concatNodes, Scene.start, Scene.globals, hargs, Keyed.put, yields_guard hmacros,
    yields_declare hmacros, find?, Keyed.get?] at h
  rcases h with ⟨-, between, list, middle, name, items, again, source,
    ⟨⟨found, last, hfound, hassign⟩, hlist, ⟨hname, -⟩, hitems, hagain, hsource, rfl⟩, rfl⟩
  rcases givenName_yields ("CONCAT_" ++ Text.join "_" (parts.map Value.display)) hmacros rfl
    (by
      intro v between hv
      simp [find?, Keyed.get?, Operation.joined] at hv
      rcases hv with ⟨rfl, rfl⟩
      exact ⟨Value.display_str _, rfl⟩) hfound with ⟨rfl, rfl⟩
  simp [Keyed.put] at hassign
  subst hassign
  rcases inputColumns_known hmacros hlist with ⟨schema, hinput⟩
  rcases keptColumns_open hmacros bare_line hlist (inputColumns_entries hmacros hinput)
    with ⟨rfl, rfl⟩
  cases hname
  cases hitems
  cases hagain
  cases hsource
  refine ⟨schema, hinput, ?_, ?_⟩
  · rw [listText_append (List.cons_ne_nil _ _)]
    simp [← String.toList_inj, listText, Text.join, concatenated, Item.line, Operation.joined]
  · simp [concatenated, typeIn]

end Templates

end Library
end TransformChain
