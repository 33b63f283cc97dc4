import TransformChain.Proofs.Library.Columns

/-!
# Casts and dates

What the templates select that compute columns from columns, in place or under new names: casts,
truncated dates and shifted dates.
-/

namespace TransformChain
namespace Library

open Template
open Template.Action
open Template.Function (namesIn typeIn typedNames)
open Item

section Templates

variable {scene : Scene} {calls : Calls} {text : String} {after : State}
variable {i length depth : Nat} {outer : List Frame} {declared : Schema}

/-!
## Casts
-/

def castText (column : String) (type : Value) : String :=
  "CAST(" ++ (column ++ (" AS " ++ (type.display ++ ")")))

def castUnderName (entry : String × Value) (type : Value) : Item :=
  ⟨.computed (castText entry.1 type), ⟨entry.1, typeIn (some type)⟩⟩

def castBeside (cast : String × Value) : Item :=
  ⟨.computed (castText cast.1 cast.2),
    ⟨Text.cleanse (cast.1 ++ "_" ++ cast.2.display), typeIn (some cast.2)⟩⟩

def castItems (schema : Schema) (casts : List (String × Value)) (overwrite : Value) : List Item :=
  if overwrite.holds then (typedNames schema).map (changed casts castUnderName)
  else (typedNames schema).map (kept .bare) ++ casts.map castBeside

theorem castInPlace_adds (hmacros : scene.template.body.macros = [])
    {casts : List (String × Value)} {entry : String × Value} {type : Value}
    (hcasts : find? "casts" outer = some (.map casts))
    (htype : Keyed.get? entry.1 casts = some type)
    (h : Yields (execAll scene calls castInPlace)
      ⟨[("col", .str entry.1), ("col_type", entry.2), ("loop", loopInfo i length)] :: outer,
        declared, depth⟩ text after) :
    Adds (castUnderName entry type) (true && i + 1 == length) outer declared depth text
      after := by
  simp [castInPlace, yields_declare hmacros, find?, Keyed.get?, Operation.index, hcasts, htype] at h
  rcases h with ⟨-, last, hlast, rfl⟩
  exact loopEnd_adds rfl hlast (by simp [← String.toList_inj, castUnderName, castText, Item.line])

theorem castAdded_adds (hmacros : scene.template.body.macros = []) {cast : String × Value}
    (h : Yields (execAll scene calls castAdded)
      ⟨[("col", .str cast.1), ("target", cast.2), ("loop", loopInfo i length)] :: outer,
        declared, depth⟩ text after) :
    Adds (castBeside cast) (true && i + 1 == length) outer declared depth text after := by
  simp [castAdded, yields_joinedName hmacros, yields_declare hmacros, find?, Keyed.get?,
    Keyed.put] at h
  rcases h with ⟨last, ⟨-, hlast⟩, rfl⟩
  exact loopEnd_adds rfl hlast (by simp [← String.toList_inj, castBeside, castText, Item.line])

theorem cast_selects (hmacros : scene.template.body.macros = []) {casts : List (String × Value)}
    {overwrite : Value}
    (hargs : scene.context.arguments =
      [("casts", .map casts), ("overwrite_columns", overwrite)])
    (h : Yields (execAll scene calls castNodes) scene.start text after) :
    ∃ schema, scene.context.input = some schema ∧
      (∀ name ∈ casts.map Prod.fst, schema.has name = true) ∧
      Selects scene text after (castItems schema casts overwrite) "\n" := by
  simp [castNodes, fromSource, Scene.start, Scene.globals, hargs, Keyed.put,
    yields_guard hmacros, yields_check_input hmacros, find?, Keyed.get?] at h
  rcases h with ⟨hholds, list, source, ⟨⟨schema, hinput, hhas⟩, hlist, hsource⟩, rfl⟩
  refine ⟨schema, hinput, hhas, ?_⟩
  unfold castItems
  cases hoverwrite : overwrite.holds with
  | true =>
      simp only [hoverwrite, if_true] at hlist ⊢
      rcases changedColumns_closed hmacros (by decide) (by decide) (by decide) rfl hlist
        (inputColumns_entries hmacros hinput)
        (fun _ _ _ _ _ _ htype hline => castInPlace_adds hmacros rfl htype hline)
        with ⟨rfl, rfl⟩
      cases hsource
      refine ⟨?_, rfl⟩
      simp [String.append_assoc]
  | false =>
      simp only [hoverwrite, Bool.false_eq_true, if_false] at hlist ⊢
      rcases hlist with ⟨first, between, hfirst, more, hmore, rfl⟩
      rcases keptColumns_open hmacros bare_line hfirst (inputColumns_entries hmacros hinput)
        with ⟨rfl, rfl⟩
      rcases forEntries_adds true castBeside (by decide) (by decide) (by decide) hmore
        (items_entries rfl) (fun _ _ _ _ _ hline => castAdded_adds hmacros hline) with ⟨rfl, rfl⟩
      cases hsource
      refine ⟨?_, by simp⟩
      rw [listText_append_map (Value.ne_nil_of_holds_map hholds)]
      simp [endedText, String.append_assoc]

/-!
## Truncated dates
-/

def truncText (column : String) (part : Value) : String :=
  "DATE_TRUNC(" ++ (Literal.quote part ++ (", " ++ (column ++ ")")))

def truncatedUnderName (entry : String × Value) (part : Value) : Item :=
  ⟨.computed (truncText entry.1 part), ⟨entry.1, typeIn (some entry.2)⟩⟩

def truncatedBeside (schema : Schema) (date : String × Value) : Item :=
  ⟨.computed (truncText date.1 date.2),
    ⟨Text.cleanse (date.1 ++ "_" ++ date.2.display),
      typeIn (some ((Keyed.get? date.1 (typedNames schema)).getD .null))⟩⟩

def truncatedItems (schema : Schema) (dates : List (String × Value)) (overwrite : Value) :
    List Item :=
  if overwrite.holds then (typedNames schema).map (changed dates truncatedUnderName)
  else (typedNames schema).map (kept .bare) ++ dates.map (truncatedBeside schema)

theorem truncatedLine_adds (hmacros : scene.template.body.macros = [])
    {dates : List (String × Value)} {entry : String × Value}
    (hdates : find? "dates" outer = some (.map dates))
    (h : Yields (execAll scene calls truncatedLine)
      ⟨[("col", .str entry.1), ("col_type", entry.2), ("loop", loopInfo i length)] :: outer,
        declared, depth⟩ text after) :
    Adds (changed dates truncatedUnderName entry) (true && i + 1 == length) outer declared depth
      text after := by
  simp [truncatedLine, yields_declare hmacros, find?, Keyed.get?, hdates, Operation.contains,
    Operation.asValue, Keyed.contains] at h
  rcases h with ⟨-, h⟩
  unfold changed
  cases hpart : Keyed.get? entry.1 dates with
  | some part =>
      simp [hpart, truncatedInPlace, yields_quote hmacros, find?, Keyed.get?, Operation.index,
        hdates] at h
      rcases h with ⟨last, hlast, rfl⟩
      exact loopEnd_adds rfl hlast
        (by simp [← String.toList_inj, truncatedUnderName, truncText, Item.line])
  | none =>
      simp [hpart] at h
      rcases h with ⟨last, hlast, rfl⟩
      exact loopEnd_adds rfl hlast (by simp [kept, Item.line, String.append_assoc])

theorem truncatedAdded_adds (hmacros : scene.template.body.macros = []) {schema : Schema}
    {date : String × Value}
    (htypes : find? "input_types" outer = some (.map (typedNames schema)))
    (h : Yields (execAll scene calls truncatedAdded)
      ⟨[("col", .str date.1), ("part", date.2), ("loop", loopInfo i length)] :: outer,
        declared, depth⟩ text after) :
    Adds (truncatedBeside schema date) (true && i + 1 == length) outer declared depth text
      after := by
  simp [truncatedAdded, yields_joinedName hmacros, yields_declare hmacros, yields_quote hmacros,
    find?, Keyed.get?, Keyed.put, Operation.index, htypes] at h
  rcases h with ⟨last, ⟨-, hlast⟩, rfl⟩
  exact loopEnd_adds rfl hlast
    (by simp [← String.toList_inj, truncatedBeside, truncText, Item.line])

theorem datetrunc_selects (hmacros : scene.template.body.macros = [])
    {dates : List (String × Value)} {overwrite : Value}
    (hargs : scene.context.arguments =
      [("dates", .map dates), ("overwrite_columns", overwrite)])
    (h : Yields (execAll scene calls datetruncNodes) scene.start text after) :
    ∃ schema, scene.context.input = some schema ∧
      (∀ name ∈ dates.map Prod.fst, schema.has name = true) ∧
      Selects scene text after (truncatedItems schema dates overwrite) "\n" := by
  simp [datetruncNodes, fromSource, Scene.start, Scene.globals, hargs, Keyed.put,
    yields_guard hmacros, yields_check_input hmacros, yields_getColumns hmacros, find?,
    Keyed.get?] at h
  rcases h with ⟨hholds, list, source, ⟨⟨schema, hinput, hhas⟩, found, hfound, hlist, hsource⟩, rfl⟩
  rw [hinput, Option.some.injEq] at hfound
  subst hfound
  refine ⟨schema, hinput, hhas, ?_⟩
  unfold truncatedItems
  cases hoverwrite : overwrite.holds with
  | true =>
      simp only [hoverwrite, if_true] at hlist ⊢
      rcases forEntries_adds true (changed dates truncatedUnderName) (by decide) (by decide)
        (by decide) hlist (items_entries rfl)
        (fun _ _ _ _ _ hline => truncatedLine_adds hmacros rfl hline) with ⟨rfl, rfl⟩
      cases hsource
      refine ⟨?_, rfl⟩
      simp [endedText, String.append_assoc]
  | false =>
      simp only [hoverwrite, Bool.false_eq_true, if_false] at hlist ⊢
      rcases hlist with ⟨first, between, hfirst, more, hmore, rfl⟩
      rcases keptColumns_open hmacros bare_line hfirst (items_entries rfl) with ⟨rfl, rfl⟩
      rcases forEntries_adds true (truncatedBeside schema) (by decide) (by decide) (by decide)
        hmore (items_entries rfl)
        (fun _ _ _ _ _ hline => truncatedAdded_adds hmacros rfl hline) with ⟨rfl, rfl⟩
      cases hsource
      refine ⟨?_, by simp⟩
      rw [listText_append_map (Value.ne_nil_of_holds_map hholds)]
      simp [endedText, String.append_assoc]

/-!
## Shifted dates
-/

structure Shift where
  offset : Value
  unit : Value

namespace Shift

def call (shift : Shift) (column : String) : String :=
  "DATEADD(" ++ (shift.unit.display ++ (", " ++ (shift.offset.display ++ (", " ++ (column ++ ")")))))

/-- A column under its own name, shifted if it is the one to shift. -/
def underName (shift : Shift) (date overwrite : Value) (entry : String × Value) : Item :=
  if overwrite.holds && (Value.str entry.1).looselyEquals date then
    ⟨.computed (shift.call entry.1), ⟨entry.1, typeIn (some entry.2)⟩⟩
  else
    kept .bare entry

def beside (shift : Shift) (schema : Schema) (date given : Value) : Item :=
  ⟨.computed (shift.call date.display),
    ⟨(givenValue given
        (date.display ++ "_add" ++ shift.offset.display ++ shift.unit.display)).display,
      typeIn (some ((Keyed.get? date.display (typedNames schema)).getD .null))⟩⟩

def items (shift : Shift) (schema : Schema) (date given overwrite : Value) : List Item :=
  (typedNames schema).map (shift.underName date overwrite) ++
    if overwrite.holds then [] else [shift.beside schema date given]

end Shift

theorem shiftedLine_adds (hmacros : scene.template.body.macros = []) {shift : Shift}
    {date overwrite : Value} {entry : String × Value}
    (hdate : find? "date" outer = some date) (hoffset : find? "offset" outer = some shift.offset)
    (hunit : find? "interval_type" outer = some shift.unit)
    (hoverwrite : find? "overwrite_columns" outer = some overwrite)
    (h : Yields (execAll scene calls shiftedLine)
      ⟨[("col", .str entry.1), ("col_type", entry.2), ("loop", loopInfo i length)] :: outer,
        declared, depth⟩ text after) :
    Adds (shift.underName date overwrite entry) (overwrite.holds && i + 1 == length) outer
      declared depth text after := by
  simp [shiftedLine, yields_declare hmacros, find?, Keyed.get?, hdate, hoverwrite] at h
  rcases h with ⟨-, v, between, hbetween, h⟩
  unfold Shift.underName
  cases hholds : overwrite.holds with
  | false =>
      simp only [hholds, Bool.false_eq_true, if_false] at hbetween
      rcases hbetween with ⟨rfl, rfl⟩
      simp [hholds, find?, Keyed.get?, hoverwrite] at h
      by_cases hlast : i + 1 = length
      · simp [hlast, hholds] at h
        exact adds_of_comma false (by simpa [kept, Item.line, String.append_assoc] using h.right)
          h.left
      · simp [hlast] at h
        exact adds_of_comma false (by simpa [kept, Item.line, String.append_assoc] using h.right)
          h.left
  | true =>
      simp only [hholds, if_true] at hbetween
      rcases hbetween with ⟨rfl, rfl⟩
      cases hequal : (Value.str entry.1).looselyEquals date with
      | true =>
          simp [hequal, shifted, find?, Keyed.get?, hoffset, hunit] at h
          rcases h with ⟨last, hlast, rfl⟩
          exact loopEnd_adds rfl hlast (by simp [← String.toList_inj, Shift.call, Item.line])
      | false =>
          simp [hequal, hoverwrite, find?, Keyed.get?] at h
          by_cases hlast : i + 1 = length
          · have hend : (i + 1 == length) = true := by simpa using hlast
            simp [hlast, hholds] at h
            rw [hend]
            exact adds_of_comma true (by simpa [kept, Item.line, String.append_assoc] using h.right)
              h.left
          · have hend : (i + 1 == length) = false := by simpa using hlast
            simp [hlast] at h
            rw [hend]
            exact adds_of_comma false
              (by simpa [kept, Item.line, String.append_assoc] using h.right) h.left

theorem dateadd_selects (hmacros : scene.template.body.macros = []) {shift : Shift}
    {date given overwrite : Value}
    (hargs : scene.context.arguments =
      [("date", date), ("offset", shift.offset), ("interval_type", shift.unit), ("alias", given),
        ("overwrite_columns", overwrite)])
    (h : Yields (execAll scene calls dateaddNodes) scene.start text after) :
    ∃ schema, scene.context.input = some schema ∧
      (∀ name ∈ namesIn date, schema.has name = true) ∧
      Selects scene text after (shift.items schema date given overwrite) "\n" := by
  simp [dateaddNodes, fromSource, Scene.start, Scene.globals, hargs, Keyed.put,
    yields_check_input hmacros, yields_getColumns hmacros, find?, Keyed.get?] at h
  rcases h with ⟨⟨schema, hinput, hhas⟩, between, first, middle, more, source,
    ⟨found, hfound, ⟨v, last, hname, hassign⟩, hfirst, ⟨w, hw, hmore⟩, hsource⟩, rfl⟩
  rw [hinput, Option.some.injEq] at hfound
  subst hfound
  rcases givenName_yields (date.display ++ "_add" ++ shift.offset.display ++ shift.unit.display)
    hmacros rfl (by
      intro v between hv
      simp [find?, Keyed.get?] at hv
      rcases hv with ⟨rfl, rfl⟩
      exact ⟨by simp [String.append_assoc], rfl⟩) hname with ⟨rfl, rfl⟩
  simp [Keyed.put] at hassign
  subst hassign
  rcases forEntries_adds overwrite.holds (shift.underName date overwrite) (by decide)
    (by decide) (by decide) hfirst (items_entries rfl)
    (fun _ _ _ _ _ hline => shiftedLine_adds hmacros rfl rfl rfl rfl hline) with ⟨rfl, rfl⟩
  cases hw
  refine ⟨schema, hinput, hhas, ?_⟩
  unfold Shift.items
  cases hholds : overwrite.holds with
  | true =>
      simp only [hholds, if_true, List.append_nil] at hmore ⊢
      rcases hmore with ⟨rfl, rfl⟩
      cases hsource
      refine ⟨?_, rfl⟩
      simp [endedText, String.append_assoc]
  | false =>
      simp [hholds, shifted, yields_declare hmacros, find?, Keyed.get?, Operation.index] at hmore
      rcases hmore with ⟨-, rfl, rfl⟩
      cases hsource
      refine ⟨?_, by simp [Shift.beside]⟩
      simp only [Bool.false_eq_true, if_false]
      rw [listText_append (List.cons_ne_nil _ _)]
      simp [← String.toList_inj, endedText, listText, Text.join, Shift.beside, Shift.call,
        Item.line]

end Templates

end Library
end TransformChain
