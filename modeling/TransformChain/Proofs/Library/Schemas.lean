import TransformChain.Proofs.Keyed.Entries
import TransformChain.Proofs.Library.Applying
import TransformChain.Proofs.Library.Arguments
import TransformChain.Proofs.Library.Dates
import TransformChain.Proofs.Library.Grouping
import TransformChain.Proofs.Library.Joining

/-!
# Output schemas of the library

The columns that each transform of the library has by its description: which columns of the input
it keeps and in which order, under which names and with which types, and which columns it adds.
A template that renders declares just these.
-/

namespace TransformChain

/-!
## Schemas with distinct names
-/

def Schema.typeOf (schema : Schema) (name : String) : Option String :=
  (schema.find? name).bind Column.type

theorem Schema.typeOf_cons (column : Column) (rest : Schema) (name : String) :
    typeOf (column :: rest) name =
      if column.name = name then column.type else typeOf rest name := by
  unfold typeOf find?
  rw [List.find?_cons]
  by_cases h : column.name = name
  · rw [if_pos h, beq_iff_eq.mpr h]
    rfl
  · rw [if_neg h, beq_eq_false_iff_ne.mpr h]

theorem Schema.typeOf_of_mem {schema : Schema} (hdistinct : schema.names.Nodup) {column : Column}
    (h : column ∈ schema) : schema.typeOf column.name = column.type := by
  induction schema with
  | nil => cases h
  | cons first rest ih =>
      unfold names at hdistinct
      rw [List.map_cons, List.nodup_cons] at hdistinct
      rw [typeOf_cons]
      rcases List.mem_cons.mp h with rfl | hmem
      · exact if_pos rfl
      · have hne : first.name ≠ column.name := fun heq =>
          hdistinct.left (heq ▸ List.mem_map_of_mem hmem)
        rw [if_neg hne]
        exact ih hdistinct.right hmem

namespace Template.Function

def typeValue : Option String → Value
  | some type => .str type
  | none => .null

@[simp] theorem typeIn_typeValue (type : Option String) :
    typeIn (some (typeValue type)) = type := by
  cases type <;> simp [typeValue, typeIn]

theorem typedNames_eq {schema : Schema} (hdistinct : schema.names.Nodup) :
    typedNames schema = schema.map fun column => (column.name, typeValue column.type) := by
  unfold typedNames
  rw [Keyed.ofPairs_of_nodup]
  · apply List.map_congr_left
    intro column _
    cases column.type <;> rfl
  · unfold Keyed.keys
    rw [List.map_map]
    exact hdistinct

theorem typeIn_get?_typedNames {schema : Schema} (hdistinct : schema.names.Nodup) (name : String) :
    typeIn (some ((Keyed.get? name (typedNames schema)).getD .null)) = schema.typeOf name := by
  rw [typedNames_eq hdistinct]
  clear hdistinct
  induction schema with
  | nil => rfl
  | cons column rest ih =>
      rw [List.map_cons, Schema.typeOf_cons]
      unfold Keyed.get?
      by_cases hname : column.name = name
      · rw [if_pos hname, if_pos hname]
        exact typeIn_typeValue column.type
      · rw [if_neg hname, if_neg hname]
        exact ih

end Template.Function

namespace Library

open Template
open Template.Function (namesIn typeIn typedNames typeValue columnsIn)

/-!
## What the transforms are for
-/

def listedColumns (schema : Schema) (names : List Value) : Schema :=
  names.map fun name => ⟨name.display, schema.typeOf name.display⟩

/-- Each column in its place, under its new name if it has one. -/
def renamedColumns (schema : Schema) (renames : List (String × Value)) : Schema :=
  schema.map fun column =>
    match Keyed.get? column.name renames with
    | some name => { column with name := name.display }
    | none => column

/-- The included columns as they are listed, or the columns that are not excluded. -/
def leftColumns (schema : Schema) (included excluded : Value) : Schema :=
  if included.holds then
    match included with
    | .list names => listedColumns schema names
    | _ => []
  else
    schema.filter fun column => !(namesIn excluded).contains column.name

/-- The columns with new types in their place, or new columns of these types behind them. -/
def castColumns (schema : Schema) (casts : List (String × Value)) (overwrite : Value) : Schema :=
  if overwrite.holds then
    schema.map fun column =>
      match Keyed.get? column.name casts with
      | some type => { column with type := typeIn (some type) }
      | none => column
  else
    schema ++ casts.map fun cast =>
      ⟨Text.cleanse (cast.1 ++ "_" ++ cast.2.display), typeIn (some cast.2)⟩

/-- The columns, and behind them those that are truncated if they do not replace their own. -/
def truncatedColumns (schema : Schema) (dates : List (String × Value)) (overwrite : Value) :
    Schema :=
  if overwrite.holds then schema
  else
    schema ++ dates.map fun date =>
      ⟨Text.cleanse (date.1 ++ "_" ++ date.2.display), schema.typeOf date.1⟩

/-- The columns, and behind them the shifted one if it does not replace its own. -/
def shiftedColumns (schema : Schema) (date offset unit given overwrite : Value) : Schema :=
  if overwrite.holds then schema
  else
    schema ++
      [⟨(givenValue given (date.display ++ "_add" ++ offset.display ++ unit.display)).display,
        schema.typeOf date.display⟩]

def concatColumns (schema : Schema) (parts : List Value) (given : Value) : Schema :=
  schema ++
    [⟨(givenValue given ("CONCAT_" ++ Text.join "_" (parts.map Value.display))).display,
      some "STRING"⟩]

/-- The columns to group by, and one without a type for each aggregate. -/
def aggregatedColumns (schema : Schema) (groups : List Value)
    (aggregations : List (String × Value)) : Schema :=
  listedColumns schema groups ++ aggregations.flatMap fun aggregation =>
    (functionsOf aggregation.2).map fun function =>
      ⟨Text.cleanse (aggregation.1 ++ "_" ++ function.display), none⟩

def pivotedColumns (schema : Schema) (dimensions : List Value) (value : Value)
    (wanted : List Value) : Schema :=
  listedColumns schema dimensions ++ wanted.map fun key =>
    ⟨Text.cleanse (value.display ++ "_" ++ key.display), none⟩

def joinedColumns (schema : Schema) (partner : SideDataset) (given : Value) : Schema :=
  schema ++ (partner.columns.getD []).map fun column =>
    ⟨Text.cleanse ((joinPrefix given partner.label).display ++ "_" ++ column.name), column.type⟩

/-!
## The columns of select lists
-/

section Columns

variable {schema : Schema}

theorem columns_kept (hdistinct : schema.names.Nodup) (lead : Lead) :
    ((typedNames schema).map (kept lead)).map Item.column = schema := by
  rw [Function.typedNames_eq hdistinct, List.map_map, List.map_map]
  simp [kept, Function.comp_def]

theorem columns_chosen (hdistinct : schema.names.Nodup) (names : List Value) :
    (names.map (chosen schema)).map Item.column = listedColumns schema names := by
  unfold listedColumns
  rw [List.map_map]
  apply List.map_congr_left
  intro name _
  simp only [Function.comp_apply, chosen, Function.typeIn_get?_typedNames hdistinct]

theorem columns_changed (hdistinct : schema.names.Nodup) {changes : List (String × Value)}
    {change : String × Value → Value → Item} {column : Column → Value → Column}
    (hchange : ∀ c value, (change (c.name, typeValue c.type) value).column = column c value) :
    ((typedNames schema).map (changed changes change)).map Item.column =
      schema.map fun c =>
        match Keyed.get? c.name changes with
        | some value => column c value
        | none => c := by
  rw [Function.typedNames_eq hdistinct, List.map_map, List.map_map]
  apply List.map_congr_left
  intro c _
  simp only [Function.comp_apply, changed]
  cases Keyed.get? c.name changes with
  | some value => exact hchange c value
  | none => simp [kept]

theorem columns_renamed (hdistinct : schema.names.Nodup) (renames : List (String × Value)) :
    ((typedNames schema).map (changed renames renamed)).map Item.column =
      renamedColumns schema renames :=
  columns_changed hdistinct fun c name => by simp [renamed]

theorem columns_left (hdistinct : schema.names.Nodup) {included : Value} (excluded : Value)
    (hincluded : included = .null ∨ ∃ names, included = .list names) :
    ((leftNames schema included excluded).map (chosen schema)).map Item.column =
      leftColumns schema included excluded := by
  rw [columns_chosen hdistinct]
  have hexcept : listedColumns schema
      ((Function.exceptNames schema (namesIn excluded)).map Value.str) =
        schema.filter fun column => !(namesIn excluded).contains column.name := by
    unfold listedColumns Function.exceptNames Schema.names
    rw [List.filter_map, List.map_map, List.map_map]
    refine (List.map_congr_left fun column hmem => ?_).trans (List.map_id _)
    have hcolumn := (List.mem_filter.mp hmem).left
    simp only [Function.comp_apply, Value.display_str, Schema.typeOf_of_mem hdistinct hcolumn, id]
  unfold leftColumns
  rcases hincluded with rfl | ⟨names, rfl⟩
  · exact hexcept
  · cases names with
    | nil => exact hexcept
    | cons name names => rfl

theorem columns_cast (hdistinct : schema.names.Nodup) (casts : List (String × Value))
    (overwrite : Value) :
    (castItems schema casts overwrite).map Item.column = castColumns schema casts overwrite := by
  unfold castItems castColumns
  cases overwrite.holds with
  | true =>
      simp only [if_true]
      exact columns_changed hdistinct fun _ _ => rfl
  | false =>
      simp only [Bool.false_eq_true, if_false]
      rw [List.map_append, columns_kept hdistinct, List.map_map]
      rfl

theorem columns_truncated (hdistinct : schema.names.Nodup) (dates : List (String × Value))
    (overwrite : Value) :
    (truncatedItems schema dates overwrite).map Item.column =
      truncatedColumns schema dates overwrite := by
  unfold truncatedItems truncatedColumns
  cases overwrite.holds with
  | true =>
      simp only [if_true]
      have hsame : ∀ c value, (truncatedUnderName (c.name, typeValue c.type) value).column = c := by
        intro c value
        simp [truncatedUnderName]
      rw [columns_changed hdistinct hsame]
      refine (List.map_congr_left fun column _ => ?_).trans (List.map_id schema)
      cases Keyed.get? column.name dates <;> rfl
  | false =>
      simp only [Bool.false_eq_true, if_false]
      rw [List.map_append, columns_kept hdistinct, List.map_map]
      congr 1
      apply List.map_congr_left
      intro date _
      simp only [Function.comp_apply, truncatedBeside, Function.typeIn_get?_typedNames hdistinct]

theorem columns_shifted (hdistinct : schema.names.Nodup) (shift : Shift)
    (date given overwrite : Value) :
    (shift.items schema date given overwrite).map Item.column =
      shiftedColumns schema date shift.offset shift.unit given overwrite := by
  have hfirst : ((typedNames schema).map (shift.underName date overwrite)).map Item.column =
      schema := by
    rw [Function.typedNames_eq hdistinct, List.map_map, List.map_map]
    refine (List.map_congr_left fun column _ => ?_).trans (List.map_id schema)
    simp only [Function.comp_apply, Shift.underName]
    split <;> simp [kept]
  unfold Shift.items shiftedColumns
  rw [List.map_append, hfirst]
  cases overwrite.holds with
  | true => simp
  | false => simp [Shift.beside, Function.typeIn_get?_typedNames hdistinct]

theorem columns_concatenated (hdistinct : schema.names.Nodup) (parts : List Value)
    (given : Value) :
    ((typedNames schema).map (kept .bare) ++ [concatenated parts given]).map Item.column =
      concatColumns schema parts given := by
  rw [List.map_append, columns_kept hdistinct]
  rfl

theorem columns_aggregated (hdistinct : schema.names.Nodup) (groups : List Value)
    (aggregations : List (String × Value)) :
    (groups.map (chosen schema) ++ aggregations.flatMap aggregates).map Item.column =
      aggregatedColumns schema groups aggregations := by
  unfold aggregatedColumns
  rw [List.map_append, columns_chosen hdistinct, List.map_flatMap]
  congr 1
  apply List.flatMap_congr
  intro aggregation _
  unfold aggregates
  rw [List.map_map]
  rfl

theorem columns_pivoted (hdistinct : schema.names.Nodup) (pivot : Pivot)
    (dimensions wanted : List Value) :
    (dimensions.map (chosen schema) ++ wanted.map pivot.column).map Item.column =
      pivotedColumns schema dimensions pivot.value wanted := by
  unfold pivotedColumns
  rw [List.map_append, columns_chosen hdistinct, List.map_map]
  rfl

theorem columns_joined (hdistinct : schema.names.Nodup) {partner : Schema} {side : SideDataset}
    (hcolumns : side.columns = some partner) (hpartner : partner.names.Nodup) (given : Value) :
    ((typedNames schema).map (kept .left) ++
        (typedNames partner).map (joined (joinPrefix given side.label))).map Item.column =
      joinedColumns schema side given := by
  unfold joinedColumns
  rw [List.map_append, columns_kept hdistinct, Function.typedNames_eq hpartner, hcolumns,
    List.map_map, List.map_map]
  congr 1
  apply List.map_congr_left
  intro column _
  simp [joined]

end Columns

/-!
## All transforms
-/

/-- The output columns of the library's transforms by their description. -/
def outputOf (transform : String) (context : Context) : Schema :=
  let schema := context.input.getD []
  let given := argument context
  match transform with
  | "filter" | "order" => schema
  | "drop_columns" => leftColumns schema (given "include_cols") (given "exclude_cols")
  | "rename" => renamedColumns schema (entriesOf (given "renames"))
  | "cast" => castColumns schema (entriesOf (given "casts")) (given "overwrite_columns")
  | "datetrunc" =>
      truncatedColumns schema (entriesOf (given "dates")) (given "overwrite_columns")
  | "dateadd" =>
      shiftedColumns schema (given "date") (given "offset") (given "interval_type")
        (given "alias") (given "overwrite_columns")
  | "concat" => concatColumns schema (itemsOf (given "concat_list")) (given "alias")
  | "aggregate" =>
      aggregatedColumns schema (itemsOf (given "group_by")) (entriesOf (given "aggregations"))
  | "pivot" =>
      pivotedColumns schema (itemsOf (given "dimensions")) (given "value_column")
        (itemsOf (given "list_of_vals"))
  | "join" =>
      match Keyed.get? (given "join_table").display context.datasets with
      | some partner => joinedColumns schema partner (given "join_prefix")
      | none => []
  | "apply" => statedColumns (given "output_columns")
  | _ => []

theorem side_of_schemaOf {scene : Scene} {relation label : String} {schema : Schema}
    (hapart : relation ≠ scene.context.source)
    (h : Function.schemaOf scene (some (.str relation)) = .ok (schema, label)) :
    ∃ side, Keyed.get? relation scene.context.datasets = some side ∧
      side.columns = some schema ∧ side.label = label := by
  simp only [Function.schemaOf, Function.asked, if_neg hapart, Function.sideDataset] at h
  cases hside : Keyed.get? relation scene.context.datasets with
  | none =>
      rw [hside] at h
      cases h
  | some side =>
      rw [hside] at h
      cases hcolumns : side.columns with
      | none =>
          simp only [hcolumns] at h
          cases h
      | some found =>
          simp only [hcolumns, Except.ok.injEq, Prod.mk.injEq] at h
          exact ⟨side, rfl, congrArg some h.left ▸ hcolumns, h.right⟩

/-- Each dataset that is bound has another relation text than the input, and column names that
differ if its columns are known. -/
def PartnersDistinct (bound : Bound) (context : Context) : Prop :=
  ∀ entry ∈ bound.datasets, entry.2.relation ≠ context.source ∧
    ∀ side schema, Keyed.get? entry.2.relation context.datasets = some side →
      side.columns = some schema → schema.names.Nodup

section Transforms

open Template.Action

variable {scene : Scene} {calls : Calls} {text : String} {after : State}

theorem Selects.declares {items : List Item} {rest : String} {columns schema : Schema}
    {name : String} (h : Selects scene text after items rest)
    (hinput : scene.context.input = some schema) (hcolumns : items.map Item.column = columns)
    (houtput : outputOf name scene.context = columns) :
    (∃ schema, scene.context.input = some schema) ∧
      after.declared = outputOf name scene.context :=
  ⟨⟨schema, hinput⟩, by rw [h.declared_eq, hcolumns, houtput]⟩

theorem join_declares {args : Keyed Argument} {ns : Option Namespace} {bound : Bound}
    (hbind : (transformOf joinListing joinBody joinNodes).bind args ns = .ok bound)
    (hmacros : scene.template.body.macros = [])
    (harguments : scene.context.arguments = bound.values)
    (hdistinct : ∀ schema, scene.context.input = some schema → schema.names.Nodup)
    (hpartners : PartnersDistinct bound scene.context)
    (h : Yields (execAll scene calls joinNodes) scene.start text after) :
    (∃ schema, scene.context.input = some schema) ∧
      after.declared = outputOf joinListing.name scene.context := by
  rcases join_values rfl hbind with ⟨table, pairs, kind, given, hvalues⟩
  have hparameters : ∀ p ∈ joinListing.parameters, p.name = "join_table" →
      p.shape = .dataset ∧ p.required = true := by decide
  rcases Transform.exists_dataset_of_get? hparameters (Transform.bindParameters_of_bind hbind)
    (congrArg (Keyed.get? "join_table") hvalues) with ⟨d, hmem, rfl⟩
  rcases hpartners ("join_table", d) (List.mem_filterMap.mpr ⟨_, hmem, rfl⟩)
    with ⟨hapart, hpartner⟩
  rcases join_selects hmacros (harguments.trans hvalues) h
    with ⟨schema, partner, label, hinput, hschema, -, -, -, hselects⟩
  rcases side_of_schemaOf hapart hschema with ⟨side, hside, hcolumns, rfl⟩
  refine hselects.declares hinput (columns_joined (hdistinct schema hinput) hcolumns
    (hpartner side partner hside hcolumns) given) ?_
  have htable : argument scene.context "join_table" = .str d.relation :=
    argument_eq (harguments.trans hvalues) "join_table"
  have hgiven : argument scene.context "join_prefix" = given :=
    argument_eq (harguments.trans hvalues) "join_prefix"
  simp only [outputOf, joinListing, htable, hgiven, Value.display_str, hside, hinput,
    Option.getD_some]

theorem declared_of_mem_trees {listing : Listing} {body : String} {nodes : List Node}
    (hmem : (listing, body, nodes) ∈ trees) {args : Keyed Argument} {ns : Option Namespace}
    {bound : Bound} (hbind : (transformOf listing body nodes).bind args ns = .ok bound)
    (hmacros : scene.template.body.macros = [])
    (harguments : scene.context.arguments = bound.values)
    (hdistinct : ∀ schema, scene.context.input = some schema → schema.names.Nodup)
    (hpartners : PartnersDistinct bound scene.context)
    (h : Yields (execAll scene calls nodes) scene.start text after) :
    (∃ schema, scene.context.input = some schema) ∧
      after.declared = outputOf listing.name scene.context := by
  simp only [trees, List.mem_cons, List.not_mem_nil, or_false, Prod.mk.injEq] at hmem
  rcases hmem with hmem | hmem | hmem | hmem | hmem | hmem | hmem | hmem | hmem | hmem | hmem
  all_goals rcases hmem with ⟨rfl, rfl, rfl⟩
  · rcases cast_values rfl hbind with ⟨casts, overwrite, hvalues⟩
    rcases cast_selects hmacros (harguments.trans hvalues) h with ⟨schema, hinput, -, hselects⟩
    refine hselects.declares hinput (columns_cast (hdistinct schema hinput) casts overwrite) ?_
    simp only [outputOf, argument, harguments, hvalues, hinput]
    rfl
  · rcases filter_values rfl hbind with ⟨conditions, word, hvalues⟩
    rcases filter_selects hmacros (harguments.trans hvalues) h with ⟨schema, hinput, -, hselects⟩
    refine hselects.declares hinput (columns_kept (hdistinct schema hinput) .bare) ?_
    simp only [outputOf, hinput]
    rfl
  · rcases dropColumns_values rfl hbind with ⟨included, excluded, hincluded, hvalues⟩
    rcases dropColumns_selects hmacros hincluded (harguments.trans hvalues) h
      with ⟨schema, hinput, -, hselects⟩
    refine hselects.declares hinput (columns_left (hdistinct schema hinput) excluded hincluded) ?_
    simp only [outputOf, argument, harguments, hvalues, hinput]
    rfl
  · rcases rename_values rfl hbind with ⟨renames, hvalues⟩
    rcases rename_selects hmacros (harguments.trans hvalues) h with ⟨schema, hinput, -, hselects⟩
    refine hselects.declares hinput (columns_renamed (hdistinct schema hinput) renames) ?_
    simp only [outputOf, argument, harguments, hvalues, hinput]
    rfl
  · rcases concat_values rfl hbind with ⟨parts, given, hvalues⟩
    rcases concat_selects hmacros (harguments.trans hvalues) h with ⟨schema, hinput, hselects⟩
    refine hselects.declares hinput (columns_concatenated (hdistinct schema hinput) parts given) ?_
    simp only [outputOf, argument, harguments, hvalues, hinput]
    rfl
  · rcases datetrunc_values rfl hbind with ⟨dates, overwrite, hvalues⟩
    rcases datetrunc_selects hmacros (harguments.trans hvalues) h
      with ⟨schema, hinput, -, hselects⟩
    refine hselects.declares hinput (columns_truncated (hdistinct schema hinput) dates overwrite) ?_
    simp only [outputOf, argument, harguments, hvalues, hinput]
    rfl
  · rcases dateadd_values rfl hbind with ⟨date, offset, unit, given, overwrite, hvalues⟩
    have hshift : scene.context.arguments =
        [("date", date), ("offset", (Shift.mk offset unit).offset),
          ("interval_type", (Shift.mk offset unit).unit), ("alias", given),
          ("overwrite_columns", overwrite)] := harguments.trans hvalues
    rcases dateadd_selects hmacros hshift h with ⟨schema, hinput, -, hselects⟩
    refine hselects.declares hinput
      (columns_shifted (hdistinct schema hinput) _ date given overwrite) ?_
    simp only [outputOf, argument, harguments, hvalues, hinput]
    rfl
  · rcases aggregate_values rfl hbind with ⟨groups, aggregations, hvalues⟩
    rcases aggregate_selects hmacros (harguments.trans hvalues) h
      with ⟨schema, hinput, -, -, hselects⟩
    refine hselects.declares hinput
      (columns_aggregated (hdistinct schema hinput) groups aggregations) ?_
    simp only [outputOf, argument, harguments, hvalues, hinput]
    rfl
  · rcases pivot_values rfl hbind with ⟨dimensions, key, value, method, wanted, hvalues⟩
    have hpivot : scene.context.arguments =
        [("dimensions", .list dimensions), ("pivot_column", (Pivot.mk key value method).key),
          ("value_column", (Pivot.mk key value method).value),
          ("agg_method", (Pivot.mk key value method).method), ("list_of_vals", .list wanted)] :=
      harguments.trans hvalues
    rcases pivot_selects hmacros hpivot h with ⟨schema, hinput, -, hselects⟩
    refine hselects.declares hinput
      (columns_pivoted (hdistinct schema hinput) _ dimensions wanted) ?_
    simp only [outputOf, argument, harguments, hvalues, hinput]
    rfl
  · exact join_declares hbind hmacros harguments hdistinct hpartners h
  · rcases order_values rfl hbind with ⟨directions, hvalues⟩
    rcases order_selects hmacros (harguments.trans hvalues) h with ⟨schema, hinput, -, hselects⟩
    refine hselects.declares hinput (columns_kept (hdistinct schema hinput) .bare) ?_
    simp only [outputOf, hinput]
    rfl

end Transforms

/-- A transform of the library that renders declares its output columns by their description and no
others, except that the one for applied texts adds what its text declares.  Whatever it is, no
column is declared twice. -/
theorem declares_output {listing : Listing} {body : String} (hentry : (listing, body) ∈ entries)
    {transform : Transform} (hcreate : Transform.create listing body = .ok transform)
    {args : Keyed Argument} {ns : Option Namespace} {bound : Bound}
    (hbind : transform.bind args ns = .ok bound) {context : Context}
    (harguments : context.arguments = bound.values)
    (hdistinct : ∀ schema, context.input = some schema → schema.names.Nodup)
    (hpartners : PartnersDistinct bound context) {rendered : Rendered}
    (hrender : render transform.template context = .ok rendered) :
    (listing.name ≠ "apply" → (∃ schema, context.input = some schema) ∧
      rendered.output = declaredOutput (outputOf listing.name context)) ∧
    (listing.name = "apply" → ∃ nodes more,
      Body.parse "apply" (argument context "sql").display = .ok ⟨nodes, []⟩ ∧
      rendered.output = declaredOutput (outputOf "apply" context ++ more) ∧
      (undeclaring.nodes nodes = true → more = [])) ∧
    (∀ columns, rendered.output = some columns → columns.names.Nodup) := by
  refine ⟨?_, ?_, fun columns houtput => (render_output_isUsable hrender houtput).distinct⟩
  · intro hname
    rcases exists_mem_trees hentry hname with ⟨nodes, hmem⟩
    rw [create_of_mem_trees hmem, Except.ok.injEq] at hcreate
    subst hcreate
    rcases render_eq_ok_iff.mp hrender with ⟨text, after, hrun, -, rfl⟩
    rcases declared_of_mem_trees hmem hbind rfl harguments hdistinct hpartners hrun
      with ⟨hinput, hdeclared⟩
    exact ⟨hinput, congrArg declaredOutput hdeclared⟩
  · intro hname
    rcases eq_apply_of_mem_entries hentry hname with ⟨rfl, rfl⟩
    rw [create_apply, Except.ok.injEq] at hcreate
    subst hcreate
    rcases render_eq_ok_iff.mp hrender with ⟨text, after, hrun, -, rfl⟩
    rcases apply_values rfl hbind with ⟨sql, columns, hvalues⟩
    rcases apply_declares rfl (harguments.trans hvalues) hrun
      with ⟨nodes, more, hparse, hdeclared, hundeclared⟩
    have hsql : argument context "sql" = sql := argument_eq (harguments.trans hvalues) "sql"
    have hcolumns : argument context "output_columns" = columns :=
      argument_eq (harguments.trans hvalues) "output_columns"
    have houtput : outputOf "apply" context = statedColumns columns := by
      simp only [outputOf, hcolumns]
    refine ⟨nodes, more, ?_, ?_, hundeclared⟩
    · rw [hsql]
      exact hparse
    · rw [houtput, ← hdeclared]

/-!
## A join
-/

def labelArguments : Keyed Argument :=
  [("join_table", .str "A.B.LABELS"), ("join_columns", .mapping [("N", .str "N")])]

def labelBound : Bound :=
  ⟨[("join_table", .dataset (.table ⟨"A", "B", "LABELS"⟩ none)),
    ("join_columns", .mapping [("N", .str "N")]), ("join_type", .str "LEFT"),
    ("join_prefix", .null)]⟩

def labelContext : Context where
  source := "NUMBERS"
  sourceLabel := "NUMBERS"
  input := some [⟨"N", some "INT"⟩]
  datasets := [("A.B.LABELS", ⟨"A.B.LABELS", some [⟨"N", some "INT"⟩, ⟨"LABEL", none⟩]⟩)]
  arguments := labelBound.values

theorem output_of_labels :
    ∃ bound rendered,
      (transformOf joinListing joinBody joinNodes).bind labelArguments none = .ok bound ∧
      render (transformOf joinListing joinBody joinNodes).template labelContext = .ok rendered ∧
      rendered.output = declaredOutput (outputOf "join" labelContext) ∧
      outputOf "join" labelContext =
        [⟨"N", some "INT"⟩, ⟨"LABELS_N", some "INT"⟩, ⟨"LABELS_LABEL", none⟩] := by
  have hcreate : Transform.create joinListing joinBody =
      .ok (transformOf joinListing joinBody joinNodes) := create_of_mem_trees (by simp [trees])
  have hbind : (transformOf joinListing joinBody joinNodes).bind labelArguments none =
      .ok labelBound := by rfl
  have hrender : render (transformOf joinListing joinBody joinNodes).template labelContext =
      .ok ⟨"SELECT\n  l.N,\n  r.N AS LABELS_N,\n  r.LABEL AS LABELS_LABEL\nFROM NUMBERS l\n" ++
        "LEFT JOIN A.B.LABELS r\n  ON l.N = r.N",
        some [⟨"N", some "INT"⟩, ⟨"LABELS_N", some "INT"⟩, ⟨"LABELS_LABEL", none⟩]⟩ :=
    eq_ok_of_toOption (by decide +kernel)
  have hdistinct : ∀ schema, labelContext.input = some schema → schema.names.Nodup := by
    intro schema hschema
    cases hschema
    decide
  have hpartners : PartnersDistinct labelBound labelContext := by
    intro entry hentry
    cases List.mem_singleton.mp hentry
    refine ⟨by decide, ?_⟩
    intro side schema hside hschema
    cases hside
    cases hschema
    decide
  have houtput := declares_output (by simp [entries]) hcreate hbind rfl hdistinct hpartners hrender
  exact ⟨_, _, hbind, hrender, (houtput.left (by decide)).right, by decide +kernel⟩

end Library
end TransformChain
