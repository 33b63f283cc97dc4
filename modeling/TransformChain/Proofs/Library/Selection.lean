import TransformChain.Proofs.Library.Phrases

/-!
# Select lists

The list that a template of the library selects: one line for each declared column, with a comma
after every line but the last.  The templates write the lines in loops, and each loop decides at
the end of a line whether a comma follows; that the lines join up is proved here, once for loops
that end the list and once for loops after which it goes on.
-/

namespace TransformChain
namespace Library

open Template
open Template.Action

inductive Lead where
  | bare
  | left
  | computed (expression : String)
deriving Repr, DecidableEq

/-- A line of a select list and the column that is declared with it. -/
structure Item where
  lead : Lead
  column : Column
deriving Repr, DecidableEq

namespace Item

def line (item : Item) : String :=
  match item.lead with
  | .bare => "  " ++ item.column.name
  | .left => "  l." ++ item.column.name
  | .computed expression => "  " ++ expression ++ " AS " ++ item.column.name

theorem bare_line (column : Column) : (Item.mk .bare column).line = "  " ++ column.name := rfl

theorem left_line (column : Column) : (Item.mk .left column).line = "  l." ++ column.name := rfl

end Item

open Item

/-- The lines separated by commas, with a line feed after the last one. -/
def listText (items : List Item) : String :=
  if items.isEmpty then "" else Text.join ",\n" (items.map Item.line) ++ "\n"

def openText (items : List Item) : String :=
  String.join (items.map fun item => item.line ++ ",\n")

/-- The lines of one round of a loop, with a comma after the last one unless the list ends. -/
def endedText (ends : Bool) (items : List Item) : String :=
  if ends then listText items else openText items

theorem openText_append (first second : List Item) :
    openText (first ++ second) = openText first ++ openText second := by
  unfold openText
  rw [List.map_append, String.join_append]

theorem openText_cons (item : Item) (rest : List Item) :
    openText (item :: rest) = item.line ++ ",\n" ++ openText rest := by
  exact openText_append [item] rest

theorem listText_append {first second : List Item} (h : second ≠ []) :
    listText (first ++ second) = openText first ++ listText second := by
  cases second with
  | nil => exact absurd rfl h
  | cons item rest =>
      induction first with
      | nil => simp [openText]
      | cons head tail ih =>
          rw [openText_cons, String.append_assoc, ← ih]
          cases tail with
          | nil => simp [listText, Text.join, String.append_assoc]
          | cons next others => simp [listText, Text.join, String.append_assoc]

theorem listText_append_map {first : List Item} {row : α → Item} {xs : List α} (h : xs ≠ []) :
    listText (first ++ xs.map row) = openText first ++ listText (xs.map row) :=
  listText_append (fun hnil => h (List.map_eq_nil_iff.mp hnil))

theorem endedText_singleton (ends : Bool) (item : Item) :
    endedText ends [item] = item.line ++ ((if ends then "" else ",") ++ "\n") := by
  cases ends with
  | true => simp [endedText, listText, Text.join]
  | false => simp [endedText, openText]

/-!
## Loops over lines
-/

theorem pieces_openText {rows : α → List Item} (xs : List α) (i : Nat) :
    pieces (fun _ x => openText (rows x)) i xs = openText (xs.flatMap rows) := by
  induction xs generalizing i with
  | nil => rfl
  | cons x rest ih => rw [pieces, ih, List.flatMap_cons, openText_append]

theorem pieces_endedText {rows : α → List Item} {length : Nat} (xs : List α) (i : Nat)
    (hlength : i + xs.length = length) (hrows : ∀ x ∈ xs, rows x ≠ []) :
    pieces (fun i x => endedText (i + 1 == length) (rows x)) i xs =
      listText (xs.flatMap rows) := by
  induction xs generalizing i with
  | nil => rfl
  | cons x rest ih =>
      rw [List.length_cons] at hlength
      rw [pieces, ih (i + 1) (by omega) (fun y hy => hrows y (List.mem_cons_of_mem x hy)),
        List.flatMap_cons]
      cases rest with
      | nil =>
          have hlast : i + 1 = length := by simpa using hlength
          simp [hlast, endedText, listText]
      | cons y others =>
          have hmore : (i + 1 == length) = false := by
            simp only [List.length_cons] at hlength
            simp only [beq_eq_false_iff_ne]
            omega
          have hne : (y :: others).flatMap rows ≠ [] := by
            intro h
            rw [List.flatMap_eq_nil_iff] at h
            exact hrows y (by simp) (h y (by simp))
          rw [listText_append hne, hmore]
          rfl

/-!
## Rounds of one line
-/

/-- A round of a loop has written the line of the item and declared its column. -/
def Adds (item : Item) (ends : Bool) (outer : List Frame) (declared : Schema) (depth : Nat)
    (text : String) (after : State) : Prop :=
  text = endedText ends [item] ∧
    ∃ inner, after = ⟨inner :: outer, declared ++ [item.column], depth⟩

theorem pieces_rows (ends : Bool) (row : α → Item) (xs : List α) :
    pieces (fun i x => endedText (ends && i + 1 == xs.length) [row x]) 0 xs =
      endedText ends (xs.map row) := by
  rw [List.map_eq_flatMap]
  cases ends with
  | true => exact pieces_endedText xs 0 (Nat.zero_add _) (fun _ _ => List.cons_ne_nil _ _)
  | false => exact pieces_openText xs 0

theorem flatMap_column (row : α → Item) (xs : List α) :
    xs.flatMap (fun x => [(row x).column]) = (xs.map row).map Item.column := by
  rw [List.map_map, List.map_eq_flatMap]
  rfl

section Lines

variable {scene : Scene} {calls : Calls} {before after : State} {text : String} {value : Value}
variable {i length : Nat}

@[simp] theorem attr_first_loopInfo :
    Operation.attr "first" (loopInfo i length) = .ok (.bool (i == 0)) := rfl

@[simp] theorem attr_last_loopInfo :
    Operation.attr "last" (loopInfo i length) = .ok (.bool (i + 1 == length)) := rfl

@[simp] theorem yields_isFirst :
    Yields (eval scene calls isFirst) before value after ↔
      ∃ v, find? "loop" before.frames = some v ∧ before = after ∧
        Operation.attr "first" v = .ok value := by
  simp [isFirst, and_assoc]

@[simp] theorem yields_isLast :
    Yields (eval scene calls isLast) before value after ↔
      ∃ v, find? "loop" before.frames = some v ∧ before = after ∧
        Operation.attr "last" v = .ok value := by
  simp [isLast, and_assoc]

theorem yields_loopEnd (hloop : find? "loop" before.frames = some (loopInfo i length)) :
    Yields (execAll scene calls loopEnd) before text after ↔
      (if i + 1 == length then "" else ",") ++ "\n" = text ∧ before = after := by
  simp [loopEnd, hloop, and_comm]

def kept (lead : Lead) (entry : String × Value) : Item :=
  ⟨lead, ⟨entry.1, Function.typeIn (some entry.2)⟩⟩

theorem keptLine_yields (hmacros : scene.template.body.macros = []) {lead : Lead} {start : String}
    (hstart : ∀ column, (Item.mk lead column).line = start ++ column.name) {ending : List Node}
    {entry : String × Value} {info : Value} {outer : List Frame} {declared : Schema}
    {depth : Nat}
    (h : Yields (execAll scene calls (keptLine start ending))
      ⟨[("col", .str entry.1), ("col_type", entry.2), ("loop", info)] :: outer, declared, depth⟩
      text after) :
    ∃ last, text = (kept lead entry).line ++ last ∧
      Yields (execAll scene calls ending)
        ⟨[("col", .str entry.1), ("col_type", entry.2), ("loop", info)] :: outer,
          declared ++ [(kept lead entry).column], depth⟩ last after := by
  simp [keptLine, yields_declare hmacros, find?, Keyed.get?] at h
  rcases h with ⟨-, last, hlast, rfl⟩
  refine ⟨last, ?_, hlast⟩
  rw [kept, hstart, String.append_assoc]

def givenValue (given : Value) (made : String) : Value :=
  if given.holds then given else .str (Text.cleanse made)

theorem givenName_yields (made : String) (hmacros : scene.template.body.macros = [])
    {given : Value} {parts : Expr} (hgiven : find? "alias" before.frames = some given)
    (hparts : ∀ v between, Yields (eval scene calls parts) before v between →
      v.display = made ∧ between = before)
    (h : Yields (eval scene calls (givenName parts)) before value after) :
    value = givenValue given made ∧ after = before := by
  simp [givenName, yields_cleanse hmacros, hgiven] at h
  unfold givenValue
  cases hholds : given.holds with
  | true =>
      simp [hholds] at h
      exact ⟨h.left.symm, h.right.symm⟩
  | false =>
      simp [hholds] at h
      rcases h with ⟨v, hv, rfl⟩
      rcases hparts v _ hv with ⟨rfl, rfl⟩
      exact ⟨rfl, rfl⟩

theorem variable_value {name : String} (hname : find? name before.frames = some value) :
    ∀ v between, Yields (eval scene calls (.var name)) before v between →
      v = value ∧ between = before := by
  intro v between h
  simp [hname] at h
  exact ⟨h.left.symm, h.right.symm⟩

theorem items_entries {name : String} {entries : List (String × Value)}
    (hname : find? name before.frames = some (.map entries)) :
    ∀ v between, Yields (eval scene calls (askItself (.var name) "items")) before v between →
      v = .list (Operation.pairValues entries) ∧ between = before := by
  intro v between h
  simp [hname] at h
  exact ⟨h.right.symm, h.left.symm⟩

theorem inputColumns_entries (hmacros : scene.template.body.macros = []) {schema : Schema}
    (hinput : scene.context.input = some schema) :
    ∀ v between, Yields (eval scene calls inputColumns) before v between →
      v = .list (Operation.pairValues (Function.typedNames schema)) ∧ between = before := by
  intro v between h
  rcases (yields_inputColumns hmacros).mp h with ⟨found, hfound, rfl, rfl⟩
  rw [hinput] at hfound
  cases hfound
  exact ⟨rfl, rfl⟩

theorem inputColumns_known (hmacros : scene.template.body.macros = []) {key name : String}
    {body : List Node}
    (h : Yields (exec scene calls (forEntries key name inputColumns body)) before text after) :
    ∃ schema, scene.context.input = some schema := by
  simp only [forEntries, exec, yields_bind, yields_inputColumns hmacros] at h
  rcases h with ⟨_, _, ⟨schema, hinput, -⟩, -⟩
  exact ⟨schema, hinput⟩

theorem forItems_known {subject name : String} {body : List Node}
    (hsubject : find? subject before.frames = some value)
    (h : Yields (exec scene calls (forItems name (.var subject) body)) before text after) :
    ∃ items, Operation.items value = .ok items := by
  simp only [forItems, exec, yields_bind, yields_eval_var, yields_ofExcept, operated_eq_ok,
    hsubject] at h
  rcases h with ⟨_, _, ⟨hvalue, rfl⟩, items, _, ⟨hitems, rfl⟩, -⟩
  cases hvalue
  exact ⟨items, hitems⟩

theorem forEntries_adds (ends : Bool) (row : String × Value → Item) {key name : String}
    (hkey : key ≠ name) (hkeyLoop : key ≠ "loop") (hnameLoop : name ≠ "loop")
    {iterable : Expr} {body : List Node} {depth : Nat} {outer : List Frame} {declared : Schema}
    {entries : List (String × Value)}
    (h : Yields (exec scene calls (forEntries key name iterable body)) ⟨outer, declared, depth⟩
      text after)
    (hiterable : ∀ v between, Yields (eval scene calls iterable) ⟨outer, declared, depth⟩
      v between → v = .list (Operation.pairValues entries) ∧
        between = ⟨outer, declared, depth⟩)
    (hround : ∀ i entry declared text after,
      Yields (execAll scene calls body)
        ⟨[(key, .str entry.1), (name, entry.2), ("loop", loopInfo i entries.length)] :: outer,
          declared, depth⟩ text after →
      Adds (row entry) (ends && i + 1 == entries.length) outer declared depth text after) :
    text = endedText ends (entries.map row) ∧
      after = ⟨outer, declared ++ (entries.map row).map Item.column, depth⟩ := by
  rw [← pieces_rows, ← flatMap_column]
  apply And.right
  apply forEntries_yields (fun _ => True) _ _ hkey hkeyLoop hnameLoop h hiterable
  intro i entry declared text after hbody
  exact ⟨trivial, hround i entry declared text after hbody⟩

theorem forItems_adds (ends : Bool) (row : Value → Item) {name : String} (hname : name ≠ "loop")
    {iterable : Expr} {body : List Node} {depth : Nat} {outer : List Frame} {declared : Schema}
    {subject : Value} {items : List Value}
    (h : Yields (exec scene calls (forItems name iterable body)) ⟨outer, declared, depth⟩
      text after)
    (hiterable : ∀ v between, Yields (eval scene calls iterable) ⟨outer, declared, depth⟩
      v between → v = subject ∧ between = ⟨outer, declared, depth⟩)
    (hitems : Operation.items subject = .ok items)
    (hround : ∀ i item declared text after,
      Yields (execAll scene calls body)
        ⟨[(name, item), ("loop", loopInfo i items.length)] :: outer, declared, depth⟩
        text after →
      Adds (row item) (ends && i + 1 == items.length) outer declared depth text after) :
    text = endedText ends (items.map row) ∧
      after = ⟨outer, declared ++ (items.map row).map Item.column, depth⟩ := by
  rw [← pieces_rows, ← flatMap_column]
  apply And.right
  apply forItems_yields (fun _ => True) _ _ hname h hiterable hitems
  intro i item declared text after hbody
  exact ⟨trivial, hround i item declared text after hbody⟩

theorem adds_of_comma {item : Item} {frame : Frame} {outer : List Frame} {declared : Schema}
    {depth : Nat} (ends : Bool)
    (htext : item.line ++ ((if ends then "" else ",") ++ "\n") = text)
    (hafter : ⟨frame :: outer, declared ++ [item.column], depth⟩ = after) :
    Adds item ends outer declared depth text after := by
  rw [← endedText_singleton] at htext
  exact ⟨htext.symm, frame, hafter.symm⟩

theorem loopEnd_adds {item : Item} {frame : Frame} {outer : List Frame} {declared : Schema}
    {depth : Nat} {last : String} (hloop : Keyed.get? "loop" frame = some (loopInfo i length))
    (h : Yields (execAll scene calls loopEnd)
      ⟨frame :: outer, declared ++ [item.column], depth⟩ last after)
    (htext : item.line ++ last = text) :
    Adds item (true && i + 1 == length) outer declared depth text after := by
  have hfind : find? "loop" (frame :: outer) = some (loopInfo i length) := by
    simp [find?, hloop]
  rcases (yields_loopEnd hfind).mp h with ⟨rfl, hafter⟩
  exact adds_of_comma (i + 1 == length) htext hafter

theorem openEnd_adds {ends : Bool} {item : Item} {frame : Frame} {outer : List Frame}
    {declared : Schema} {depth : Nat} {last : String}
    (h : Yields (execAll scene calls openEnd)
      ⟨frame :: outer, declared ++ [item.column], depth⟩ last after)
    (htext : item.line ++ last = text) :
    Adds item (false && ends) outer declared depth text after := by
  simp [openEnd] at h
  rcases h with ⟨rfl, rfl⟩
  exact adds_of_comma false htext rfl

theorem keptLine_adds (hmacros : scene.template.body.macros = []) {entry : String × Value}
    {outer : List Frame} {declared : Schema} {depth : Nat}
    (h : Yields (execAll scene calls (keptLine "  " loopEnd))
      ⟨[("col", .str entry.1), ("col_type", entry.2), ("loop", loopInfo i length)] :: outer,
        declared, depth⟩ text after) :
    Adds (kept .bare entry) (true && i + 1 == length) outer declared depth text after := by
  rcases keptLine_yields hmacros bare_line h with ⟨last, rfl, hlast⟩
  exact loopEnd_adds rfl hlast rfl

theorem keptColumns_closed (hmacros : scene.template.body.macros = []) {iterable : Expr}
    {entries : List (String × Value)} {outer : List Frame} {declared : Schema} {depth : Nat}
    (h : Yields (exec scene calls
      (forEntries "col" "col_type" iterable (keptLine "  " loopEnd))) ⟨outer, declared, depth⟩
      text after)
    (hiterable : ∀ v between, Yields (eval scene calls iterable) ⟨outer, declared, depth⟩
      v between → v = .list (Operation.pairValues entries) ∧
        between = ⟨outer, declared, depth⟩) :
    text = listText (entries.map (kept .bare)) ∧
      after = ⟨outer, declared ++ (entries.map (kept .bare)).map Item.column, depth⟩ := by
  apply forEntries_adds true _ (by decide) (by decide) (by decide) h hiterable
  intro i entry declared text after hline
  exact keptLine_adds hmacros hline

theorem keptColumns_open (hmacros : scene.template.body.macros = []) {lead : Lead}
    {start : String} (hstart : ∀ column, (Item.mk lead column).line = start ++ column.name)
    {iterable : Expr} {entries : List (String × Value)} {outer : List Frame}
    {declared : Schema} {depth : Nat}
    (h : Yields (exec scene calls
      (forEntries "col" "col_type" iterable (keptLine start openEnd))) ⟨outer, declared, depth⟩
      text after)
    (hiterable : ∀ v between, Yields (eval scene calls iterable) ⟨outer, declared, depth⟩
      v between → v = .list (Operation.pairValues entries) ∧
        between = ⟨outer, declared, depth⟩) :
    text = openText (entries.map (kept lead)) ∧
      after = ⟨outer, declared ++ (entries.map (kept lead)).map Item.column, depth⟩ := by
  apply forEntries_adds false _ (by decide) (by decide) (by decide) h hiterable
  intro i entry declared text after hline
  rcases keptLine_yields hmacros hstart hline with ⟨last, rfl, hlast⟩
  exact openEnd_adds hlast rfl

/-- A column that is changed if the mapping names it, and kept if not. -/
def changed (changes : List (String × Value)) (change : String × Value → Value → Item)
    (entry : String × Value) : Item :=
  match Keyed.get? entry.1 changes with
  | some value => change entry value
  | none => kept .bare entry

theorem changedColumns_closed (hmacros : scene.template.body.macros = []) {subject : String}
    {changes : List (String × Value)} {change : String × Value → Value → Item}
    {iterable : Expr} {body : List Node} {entries : List (String × Value)}
    {outer : List Frame} {declared : Schema} {depth : Nat}
    (hcol : "col" ≠ subject) (htype : "col_type" ≠ subject) (hloop : "loop" ≠ subject)
    (hsubject : find? subject outer = some (.map changes))
    (h : Yields (exec scene calls (forEntries "col" "col_type" iterable
      [.branch [(.binary .mem (.var "col") (.var subject), body)] (keptLine "  " loopEnd)]))
      ⟨outer, declared, depth⟩ text after)
    (hiterable : ∀ v between, Yields (eval scene calls iterable) ⟨outer, declared, depth⟩
      v between → v = .list (Operation.pairValues entries) ∧
        between = ⟨outer, declared, depth⟩)
    (hbody : ∀ i entry value declared text after, Keyed.get? entry.1 changes = some value →
      Yields (execAll scene calls body)
        ⟨[("col", .str entry.1), ("col_type", entry.2),
          ("loop", loopInfo i entries.length)] :: outer, declared, depth⟩ text after →
      Adds (change entry value) (true && i + 1 == entries.length) outer declared depth text
        after) :
    text = listText (entries.map (changed changes change)) ∧
      after = ⟨outer, declared ++ (entries.map (changed changes change)).map Item.column,
        depth⟩ := by
  apply forEntries_adds true _ (by decide) (by decide) (by decide) h hiterable
  intro i entry declared text after hline
  simp [find?, Keyed.get?, hcol, htype, hloop, hsubject, Operation.contains, Operation.asValue,
    Keyed.contains] at hline
  unfold changed
  cases hvalue : Keyed.get? entry.1 changes with
  | some value =>
      simp [hvalue] at hline
      exact hbody i entry value declared text after hvalue hline
  | none =>
      simp [hvalue] at hline
      exact keptLine_adds hmacros hline

/-- A column that is chosen by name, with the type that the input gives it. -/
def chosen (schema : Schema) (name : Value) : Item :=
  ⟨.bare, ⟨name.display, Function.typeIn
    (some ((Keyed.get? name.display (Function.typedNames schema)).getD .null))⟩⟩

theorem chosenLine_yields (hmacros : scene.template.body.macros = []) {schema : Schema}
    {ending : List Node} {name info : Value} {outer : List Frame} {declared : Schema}
    {depth : Nat}
    (htypes : find? "input_types" outer = some (.map (Function.typedNames schema)))
    (h : Yields (execAll scene calls (chosenLine ending))
      ⟨[("col", name), ("loop", info)] :: outer, declared, depth⟩ text after) :
    ∃ last, (chosen schema name).line ++ last = text ∧
      Yields (execAll scene calls ending)
        ⟨[("col", name), ("loop", info)] :: outer,
          declared ++ [(chosen schema name).column], depth⟩ last after := by
  simp [chosenLine, yields_declare hmacros, find?, Keyed.get?, htypes, Operation.index] at h
  rcases h with ⟨-, last, hlast, rfl⟩
  exact ⟨last, by simp [chosen, Item.line, String.append_assoc], hlast⟩

theorem chosenColumns_closed (hmacros : scene.template.body.macros = []) {schema : Schema}
    {subject : String} {value : Value} {names : List Value} {outer : List Frame}
    {declared : Schema} {depth : Nat}
    (hsubject : find? subject outer = some value) (hnames : Operation.items value = .ok names)
    (htypes : find? "input_types" outer = some (.map (Function.typedNames schema)))
    (h : Yields (exec scene calls (forItems "col" (.var subject) (chosenLine loopEnd)))
      ⟨outer, declared, depth⟩ text after) :
    text = listText (names.map (chosen schema)) ∧
      after = ⟨outer, declared ++ (names.map (chosen schema)).map Item.column, depth⟩ := by
  apply forItems_adds true _ (by decide) h (variable_value hsubject) hnames
  intro i name declared text after hline
  rcases chosenLine_yields hmacros htypes hline with ⟨last, htext, hlast⟩
  exact loopEnd_adds rfl hlast htext

theorem chosenColumns_open (hmacros : scene.template.body.macros = []) {schema : Schema}
    {subject : String} {value : Value} {names : List Value} {outer : List Frame}
    {declared : Schema} {depth : Nat}
    (hsubject : find? subject outer = some value) (hnames : Operation.items value = .ok names)
    (htypes : find? "input_types" outer = some (.map (Function.typedNames schema)))
    (h : Yields (exec scene calls (forItems "col" (.var subject) (chosenLine openEnd)))
      ⟨outer, declared, depth⟩ text after) :
    text = openText (names.map (chosen schema)) ∧
      after = ⟨outer, declared ++ (names.map (chosen schema)).map Item.column, depth⟩ := by
  apply forItems_adds false _ (by decide) h (variable_value hsubject) hnames
  intro i name declared text after hline
  rcases chosenLine_yields hmacros htypes hline with ⟨last, htext, hlast⟩
  exact openEnd_adds hlast htext

end Lines

end Library
end TransformChain
