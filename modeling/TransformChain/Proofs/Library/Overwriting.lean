import TransformChain.Proofs.Library.Checking
import TransformChain.Proofs.Library.SelectList

/-!
# Columns that are changed in place

A cast, a truncation or a shift of dates that overwrites columns selects each column of the input
under its own name: changed if it is named by the arguments, and as it is otherwise.  A cast and a
truncation find a column by its name, but a shift compares it with the date as a value, so that a
date which is no text picks out no column, although a column of that name is required.
-/

namespace TransformChain
namespace Library

open Template
open Template.Action
open Template.Function (namesIn typeIn typedNames typeValue)

/-!
## What is changed
-/

def subjectOf (transform : String) (context : Context) : Value :=
  match transform with
  | "cast" => argument context "casts"
  | "datetrunc" => argument context "dates"
  | "dateadd" => argument context "date"
  | _ => .null

def changeOf (transform : String) (context : Context) (column : String) : String :=
  let given := argument context
  let entry := (Keyed.get? column (entriesOf (subjectOf transform context))).getD .null
  match transform with
  | "cast" => castText column entry
  | "datetrunc" => truncText column entry
  | "dateadd" => Shift.call ⟨given "offset", given "interval_type"⟩ column
  | _ => column

/-- Whether the columns that the arguments name are found: to shift one, it must be named by a
text. -/
def picks (transform : String) (context : Context) : Bool :=
  transform != "dateadd" || (argument context "date").kind == .string

/-- Each column is selected under its own name, changed if it is chosen. -/
def ChangesInPlace (transform : String) (context : Context) (chosen : String → Bool)
    (schema : Schema) (items : List Item) : Prop :=
  items.map (fun item => (item.lead, item.column.name)) =
    schema.map fun column =>
      (if chosen column.name then .computed (changeOf transform context column.name) else .bare,
        column.name)

section Changes

variable {transform : String} {context : Context} {chosen other : String → Bool}
  {schema : Schema} {items : List Item}

/-- A list shows which of the columns were chosen. -/
theorem ChangesInPlace.chosen_eq (h : ChangesInPlace transform context chosen schema items)
    (hother : ChangesInPlace transform context other schema items) {name : String}
    (hname : schema.has name = true) : chosen name = other name := by
  rcases List.mem_map.mp (Schema.has_iff.mp hname) with ⟨column, hmem, rfl⟩
  have hlead := congrArg Prod.fst (List.map_inj_left.mp (h.symm.trans hother) column hmem)
  cases hchosen : chosen column.name <;> cases hfound : other column.name
  all_goals simp [hchosen, hfound] at hlead ⊢

theorem ChangesInPlace.exists_changed_iff
    (h : ChangesInPlace transform context chosen schema items) :
    (∃ item ∈ items, item.lead ≠ .bare) ↔
      ∃ name, schema.has name = true ∧ chosen name = true := by
  have hleads : items.map Item.lead = schema.map fun column =>
      if chosen column.name then .computed (changeOf transform context column.name) else .bare := by
    have hfst := congrArg (List.map Prod.fst) h
    rwa [List.map_map, List.map_map] at hfst
  calc (∃ item ∈ items, item.lead ≠ .bare)
      ↔ ∃ lead ∈ items.map Item.lead, lead ≠ .bare := by
        simp only [List.mem_map, exists_exists_and_eq_and]
    _ ↔ ∃ column ∈ schema, chosen column.name = true := by
        rw [hleads]
        simp only [List.mem_map, exists_exists_and_eq_and]
        apply exists_congr
        intro column
        cases chosen column.name <;> simp
    _ ↔ ∃ name ∈ schema.names, chosen name = true := by
        simp only [Schema.names, List.mem_map, exists_exists_and_eq_and]
    _ ↔ ∃ name, schema.has name = true ∧ chosen name = true := by
        simp only [Schema.has_iff]

theorem ChangesInPlace.listText_eq (h : ChangesInPlace transform context chosen schema items) :
    listText items = listText (schema.map fun column =>
      ⟨if chosen column.name then .computed (changeOf transform context column.name) else .bare,
        column⟩) := by
  have hlines : items.map Item.line = (schema.map fun column =>
      Item.mk (if chosen column.name then .computed (changeOf transform context column.name)
        else .bare) column).map Item.line := by
    calc items.map Item.line
        = (items.map fun item => (item.lead, item.column.name)).map
            fun shown => (Item.mk shown.1 ⟨shown.2, none⟩).line := by
          rw [List.map_map]
          rfl
      _ = _ := by
          rw [h, List.map_map, List.map_map]
          rfl
  have hempty : ∀ list : List Item, list.isEmpty = (list.map Item.line).isEmpty := by
    intro list
    exact List.isEmpty_map.symm
  unfold listText
  rw [hempty items, hempty (schema.map _), hlines]

end Changes

/-!
## Columns found by their names
-/

section Columns

variable {schema : Schema} {transform : String} {context : Context}

theorem changes_typedNames (hdistinct : schema.names.Nodup) {chosen : String → Bool}
    {item : String × Value → Item}
    (hitem : ∀ entry, ((item entry).lead, (item entry).column.name) =
      (if chosen entry.1 then .computed (changeOf transform context entry.1) else .bare, entry.1)) :
    ChangesInPlace transform context chosen schema ((typedNames schema).map item) := by
  unfold ChangesInPlace
  rw [Function.typedNames_eq hdistinct, List.map_map, List.map_map]
  apply List.map_congr_left
  intro column _
  exact hitem (column.name, typeValue column.type)

theorem changes_keys (hdistinct : schema.names.Nodup) {changes : List (String × Value)}
    {change : String × Value → Value → Item}
    (hchange : ∀ entry value, Keyed.get? entry.1 changes = some value →
      ((change entry value).lead, (change entry value).column.name) =
        (.computed (changeOf transform context entry.1), entry.1)) :
    ChangesInPlace transform context (namesIn (.map changes)).contains schema
      ((typedNames schema).map (changed changes change)) := by
  apply changes_typedNames hdistinct
  intro entry
  have hcontains : (namesIn (.map changes)).contains entry.1 =
      (Keyed.get? entry.1 changes).isSome := (Keyed.isSome_get? entry.1 changes).symm
  rw [hcontains, changed]
  cases hget : Keyed.get? entry.1 changes with
  | some value => exact hchange entry value hget
  | none => rfl

theorem looselyEquals_str_left (name : String) (value : Value) :
    (Value.str name).looselyEquals value =
      (value.kind == .string && [value.display].contains name) := by
  cases value with
  | str s => simp [Value.kind, beq_eq_decide]
  | _ => rfl

/-- A shift changes the column that the date names, if that is a text. -/
theorem changes_date (hdistinct : schema.names.Nodup) {shift : Shift} {date overwrite : Value}
    (hoverwrite : overwrite.holds = true)
    (hchange : ∀ column, changeOf transform context column = shift.call column) :
    ChangesInPlace transform context
      (fun name => date.kind == .string && [date.display].contains name) schema
      ((typedNames schema).map (shift.underName date overwrite)) := by
  apply changes_typedNames hdistinct
  intro entry
  rw [Shift.underName, hoverwrite, Bool.true_and, looselyEquals_str_left, hchange]
  split <;> rfl

end Columns

/-!
## Runs
-/

section Runs

variable {scene : Scene} {calls : Calls} {text : String} {after : State} {schema : Schema}

theorem holds_of_guard (hmacros : scene.template.body.macros = []) {subject message : String}
    {rest : List Node} {value : Value} (hvalue : find? subject scene.start.frames = some value)
    (h : Yields (execAll scene calls (guard subject message :: rest)) scene.start text after) :
    value.holds = true := by
  rw [yields_execAll_cons] at h
  rcases h with ⟨_, _, hguard, -⟩
  rcases (yields_guard hmacros).mp hguard with ⟨found, hfound, hholds, -⟩
  rw [hvalue, Option.some.injEq] at hfound
  rw [hfound, hholds]

/-- What a run in place has written: the columns that are picked out are changed, and at least one
column is named. -/
structure Overwrites (transform : String) (scene : Scene) (text : String) (after : State)
    (schema : Schema) (items : List Item) : Prop where
  selects : Selects scene text after items "\n"
  changes : ChangesInPlace transform scene.context
    (fun name => picks transform scene.context &&
      (namesIn (subjectOf transform scene.context)).contains name) schema items
  named : ∃ name ∈ namesIn (subjectOf transform scene.context), schema.has name = true

section Overwrites

variable {transform : String} {items : List Item}

theorem Overwrites.changes_named_iff (h : Overwrites transform scene text after schema items) :
    ChangesInPlace transform scene.context
        (namesIn (subjectOf transform scene.context)).contains schema items ↔
      picks transform scene.context = true := by
  constructor
  · intro hnamed
    rcases h.named with ⟨name, hname, hhas⟩
    have hchosen := h.changes.chosen_eq hnamed hhas
    rw [List.contains_iff_mem.mpr hname, Bool.and_true] at hchosen
    exact hchosen
  · intro hpicks
    have hchanges := h.changes
    simp only [hpicks, Bool.true_and] at hchanges
    exact hchanges

theorem Overwrites.exists_changed_iff (h : Overwrites transform scene text after schema items) :
    (∃ item ∈ items, item.lead ≠ .bare) ↔ picks transform scene.context = true := by
  rw [h.changes.exists_changed_iff]
  constructor
  · rintro ⟨name, -, hchosen⟩
    exact (Bool.and_eq_true_iff.mp hchosen).left
  · intro hpicks
    rcases h.named with ⟨name, hname, hhas⟩
    exact ⟨name, hhas, by rw [hpicks, List.contains_iff_mem.mpr hname, Bool.true_and]⟩

end Overwrites

/-- One proof for the transforms whose columns are the keys of a mapping. -/
theorem mapping_overwrites {transform : String} {changes : List (String × Value)}
    {change : String × Value → Value → Item}
    (hsubject : subjectOf transform scene.context = .map changes)
    (hpicks : picks transform scene.context = true)
    (hholds : (Value.map changes).holds = true)
    (hhas : ∀ name ∈ changes.map Prod.fst, schema.has name = true)
    (hdistinct : schema.names.Nodup)
    (hchange : ∀ entry value, Keyed.get? entry.1 changes = some value →
      ((change entry value).lead, (change entry value).column.name) =
        (.computed (changeOf transform scene.context entry.1), entry.1))
    (hselects : Selects scene text after ((typedNames schema).map (changed changes change)) "\n") :
    ∃ items, Overwrites transform scene text after schema items := by
  refine ⟨_, hselects, ?_, ?_⟩
  · simp only [hsubject, hpicks, Bool.true_and]
    exact changes_keys hdistinct hchange
  · rw [hsubject]
    rcases List.exists_mem_of_ne_nil _ (Value.ne_nil_of_holds_map hholds) with ⟨entry, hmem⟩
    have hname : entry.1 ∈ changes.map Prod.fst := List.mem_map_of_mem hmem
    exact ⟨entry.1, hname, hhas entry.1 hname⟩

theorem cast_overwrites (hmacros : scene.template.body.macros = [])
    {casts : List (String × Value)} {overwrite : Value}
    (hargs : scene.context.arguments = [("casts", .map casts), ("overwrite_columns", overwrite)])
    (hinput : scene.context.input = some schema) (hdistinct : schema.names.Nodup)
    (hoverwrite : overwrite.holds = true)
    (h : Yields (execAll scene calls castNodes) scene.start text after) :
    ∃ items, Overwrites "cast" scene text after schema items := by
  have hsubject : subjectOf "cast" scene.context = .map casts := argument_eq hargs "casts"
  have hholds : (Value.map casts).holds = true :=
    holds_of_guard hmacros (start_variable "casts" hargs rfl) h
  rcases cast_selects hmacros hargs h with ⟨found, hfound, hhas, hselects⟩
  rw [hinput, Option.some.injEq] at hfound
  subst hfound
  rw [castItems, if_pos hoverwrite] at hselects
  refine mapping_overwrites hsubject rfl hholds hhas hdistinct ?_ hselects
  intro entry type htype
  simp only [castUnderName, changeOf, hsubject, entriesOf, htype, Option.getD_some]

theorem datetrunc_overwrites (hmacros : scene.template.body.macros = [])
    {dates : List (String × Value)} {overwrite : Value}
    (hargs : scene.context.arguments = [("dates", .map dates), ("overwrite_columns", overwrite)])
    (hinput : scene.context.input = some schema) (hdistinct : schema.names.Nodup)
    (hoverwrite : overwrite.holds = true)
    (h : Yields (execAll scene calls datetruncNodes) scene.start text after) :
    ∃ items, Overwrites "datetrunc" scene text after schema items := by
  have hsubject : subjectOf "datetrunc" scene.context = .map dates := argument_eq hargs "dates"
  have hholds : (Value.map dates).holds = true :=
    holds_of_guard hmacros (start_variable "dates" hargs rfl) h
  rcases datetrunc_selects hmacros hargs h with ⟨found, hfound, hhas, hselects⟩
  rw [hinput, Option.some.injEq] at hfound
  subst hfound
  rw [truncatedItems, if_pos hoverwrite] at hselects
  refine mapping_overwrites hsubject rfl hholds hhas hdistinct ?_ hselects
  intro entry part hpart
  simp only [truncatedUnderName, changeOf, hsubject, entriesOf, hpart, Option.getD_some]

theorem dateadd_overwrites (hmacros : scene.template.body.macros = []) {shift : Shift}
    {date given overwrite : Value}
    (hargs : scene.context.arguments =
      [("date", date), ("offset", shift.offset), ("interval_type", shift.unit), ("alias", given),
        ("overwrite_columns", overwrite)])
    (hdate : namesIn date = [date.display])
    (hinput : scene.context.input = some schema) (hdistinct : schema.names.Nodup)
    (hoverwrite : overwrite.holds = true)
    (h : Yields (execAll scene calls dateaddNodes) scene.start text after) :
    ∃ items, Overwrites "dateadd" scene text after schema items := by
  have hsubject : subjectOf "dateadd" scene.context = date := argument_eq hargs "date"
  have hpicks : picks "dateadd" scene.context = (date.kind == .string) := by
    rw [← hsubject]
    rfl
  rcases dateadd_selects hmacros hargs h with ⟨found, hfound, hhas, hselects⟩
  rw [hinput, Option.some.injEq] at hfound
  subst hfound
  rw [Shift.items, if_pos hoverwrite, List.append_nil] at hselects
  refine ⟨_, hselects, ?_, ?_⟩
  · rw [hsubject, hpicks, hdate]
    apply changes_date hdistinct hoverwrite
    intro column
    simp only [changeOf, argument, hargs]
    rfl
  · rw [hsubject]
    rw [hdate] at hhas ⊢
    exact ⟨_, List.mem_singleton_self _, hhas _ (List.mem_singleton_self _)⟩

def overwritingTransforms : List String :=
  ["cast", "datetrunc", "dateadd"]

theorem exists_overwrites {listing : Listing} {body : String} {nodes : List Node}
    (hmem : (listing, body, nodes) ∈ trees) (hname : listing.name ∈ overwritingTransforms)
    {args : Keyed Argument} {ns : Option Namespace} {bound : Bound}
    (hbind : (transformOf listing body nodes).bind args ns = .ok bound)
    (hmacros : scene.template.body.macros = [])
    (harguments : scene.context.arguments = bound.values)
    (hinput : scene.context.input = some schema) (hdistinct : schema.names.Nodup)
    (hoverwrite : (argument scene.context "overwrite_columns").holds = true)
    (h : Yields (execAll scene calls nodes) scene.start text after) :
    ∃ items, Overwrites listing.name scene text after schema items := by
  simp only [trees, List.mem_cons, List.not_mem_nil, or_false, Prod.mk.injEq] at hmem
  rcases hmem with hmem | hmem | hmem | hmem | hmem | hmem | hmem | hmem | hmem | hmem | hmem
  all_goals rcases hmem with ⟨rfl, rfl, rfl⟩
  case inl =>
    rcases cast_values rfl hbind with ⟨casts, overwrite, hvalues⟩
    have hargs := harguments.trans hvalues
    rw [argument_eq hargs] at hoverwrite
    exact cast_overwrites hmacros hargs hinput hdistinct hoverwrite h
  case inr.inr.inr.inr.inr.inl =>
    rcases datetrunc_values rfl hbind with ⟨dates, overwrite, hvalues⟩
    have hargs := harguments.trans hvalues
    rw [argument_eq hargs] at hoverwrite
    exact datetrunc_overwrites hmacros hargs hinput hdistinct hoverwrite h
  case inr.inr.inr.inr.inr.inr.inl =>
    rcases dateadd_named rfl hbind with ⟨date, offset, unit, given, overwrite, hdate, hvalues⟩
    have hargs : scene.context.arguments =
        [("date", date), ("offset", (Shift.mk offset unit).offset),
          ("interval_type", (Shift.mk offset unit).unit), ("alias", given),
          ("overwrite_columns", overwrite)] := harguments.trans hvalues
    rw [argument_eq hargs] at hoverwrite
    exact dateadd_overwrites hmacros hargs hdate hinput hdistinct hoverwrite h
  all_goals exact absurd hname (by decide)

end Runs

/-!
## Changed columns and named columns
-/

theorem ne_apply_of_overwrites {name : String} (h : name ∈ overwritingTransforms) :
    name ≠ "apply" := by
  rintro rfl
  exact absurd h (by decide)

/-- Whatever a cast, a truncation or a shift of dates that overwrites columns is given, if it
renders, then its select list has one line for each column of the input, in order and under its own
name, and the changed columns are those that the arguments name, exactly if a date to shift is a
text: by any other date no column is found, and none is changed. -/
theorem overwrite_changes_named_iff {listing : Listing} {body : String}
    (hentry : (listing, body) ∈ entries) (hname : listing.name ∈ overwritingTransforms)
    {transform : Transform} (hcreate : Transform.create listing body = .ok transform)
    {args : Keyed Argument} {ns : Option Namespace} {bound : Bound}
    (hbind : transform.bind args ns = .ok bound) {context : Context}
    (harguments : context.arguments = bound.values) {schema : Schema}
    (hinput : context.input = some schema) (hdistinct : schema.names.Nodup)
    (hoverwrite : (argument context "overwrite_columns").holds = true) {rendered : Rendered}
    (hrender : render transform.template context = .ok rendered) :
    ∃ text items,
      (Scene.run ⟨transform.template, context⟩ callBudget).1 = .done text ∧
      rendered.sql = Text.trim text ∧
      text = "SELECT\n" ++ listText items ++ "FROM " ++ context.source ++ "\n" ∧
      items.map Item.column = rendered.output.getD [] ∧
      ChangesInPlace listing.name context
        (fun name => picks listing.name context &&
          (namesIn (subjectOf listing.name context)).contains name) schema items ∧
      (ChangesInPlace listing.name context
          (namesIn (subjectOf listing.name context)).contains schema items ↔
        picks listing.name context = true) ∧
      ((∃ item ∈ items, item.lead ≠ .bare) ↔ picks listing.name context = true) := by
  rcases exists_tree_of_create hentry (ne_apply_of_overwrites hname) hcreate
    with ⟨nodes, hmem, rfl⟩
  rcases run_of_render hrender with ⟨text, after, hrun, hsql, houtput⟩
  rcases exists_overwrites hmem hname hbind rfl harguments hinput hdistinct hoverwrite hrun
    with ⟨items, hitems⟩
  rcases hitems.selects with ⟨htext, hdeclared⟩
  exact ⟨text, items, by rw [hrun], hsql, htext, by rw [houtput, hdeclared], hitems.changes,
    hitems.changes_named_iff, hitems.exists_changed_iff⟩

def shiftArguments (date : Argument) : Keyed Argument := [
  ("date", date),
  ("offset", .int 1),
  ("interval_type", .str "day"),
  ("overwrite_columns", .bool true)]

def shiftBound (date : Argument) : Bound :=
  ⟨[("date", date), ("offset", .int 1), ("interval_type", .str "day"), ("alias", .null),
    ("overwrite_columns", .bool true)]⟩

def yearSchema : Schema :=
  [⟨"ID", some "INT"⟩, ⟨"2024", some "DATE"⟩]

def shiftContext (date : Argument) : Context where
  source := "A.B.C"
  sourceLabel := "A.B.C"
  input := some yearSchema
  datasets := []
  arguments := (shiftBound date).values

def dateShift : Transform :=
  transformOf dateaddListing dateaddBody dateaddNodes

theorem year_shifted :
    dateShift.bind (shiftArguments (.str "2024")) none = .ok (shiftBound (.str "2024")) ∧
    (argument (shiftContext (.str "2024")) "overwrite_columns").holds = true ∧
    ∃ rendered, render dateShift.template (shiftContext (.str "2024")) = .ok rendered ∧
      ∃ text items, rendered.sql = Text.trim text ∧
        text = "SELECT\n" ++ listText items ++ "FROM " ++ "A.B.C" ++ "\n" ∧
        ChangesInPlace "dateadd" (shiftContext (.str "2024"))
          (namesIn (subjectOf "dateadd" (shiftContext (.str "2024")))).contains
          yearSchema items ∧
        ∃ item ∈ items, item.lead ≠ .bare := by
  have hcreate : Transform.create dateaddListing dateaddBody = .ok dateShift :=
    create_of_mem_trees (by simp [trees])
  have hbind : dateShift.bind (shiftArguments (.str "2024")) none =
      .ok (shiftBound (.str "2024")) := by rfl
  have hrender : render dateShift.template (shiftContext (.str "2024")) =
      .ok ⟨"SELECT\n  ID,\n  DATEADD(day, 1, 2024) AS 2024\nFROM A.B.C", some yearSchema⟩ :=
    eq_ok_of_toOption (by decide +kernel)
  rcases overwrite_changes_named_iff (by simp [entries]) (by decide) hcreate hbind rfl rfl
    (by decide) (by rfl) hrender with ⟨text, items, -, hsql, htext, -, -, hnamed, hchanged⟩
  exact ⟨hbind, by rfl, _, hrender, text, items, hsql, htext, hnamed.mpr (by rfl),
    hchanged.mpr (by rfl)⟩

/-- A number that is displayed as the name of a column satisfies the check that the column exists,
but the column is not shifted. -/
theorem year_not_shifted :
    dateShift.bind (shiftArguments (.int 2024)) none = .ok (shiftBound (.int 2024)) ∧
    (argument (shiftContext (.int 2024)) "overwrite_columns").holds = true ∧
    yearSchema.names.Nodup ∧
    namesIn (subjectOf "dateadd" (shiftContext (.int 2024))) = ["2024"] ∧
    ∃ rendered, render dateShift.template (shiftContext (.int 2024)) = .ok rendered ∧
      rendered.sql = "SELECT\n  ID,\n  2024\nFROM A.B.C" ∧
      ¬∃ items, rendered.sql =
          Text.trim ("SELECT\n" ++ listText items ++ "FROM " ++ "A.B.C" ++ "\n") ∧
        ChangesInPlace "dateadd" (shiftContext (.int 2024))
          (namesIn (subjectOf "dateadd" (shiftContext (.int 2024)))).contains
          yearSchema items := by
  have hrender : render dateShift.template (shiftContext (.int 2024)) =
      .ok ⟨"SELECT\n  ID,\n  2024\nFROM A.B.C", some yearSchema⟩ :=
    eq_ok_of_toOption (by decide +kernel)
  refine ⟨by rfl, by rfl, by decide, by rfl, _, hrender, rfl, ?_⟩
  rintro ⟨items, hsql, hchanges⟩
  rw [hchanges.listText_eq] at hsql
  exact absurd hsql (by decide +kernel)

end Library
end TransformChain
