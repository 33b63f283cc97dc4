import TransformChain.Export.Models
import TransformChain.Proofs.Yaml.Contents

/-!
# The list of models

The text of the file that lists the models of a project, line by line: the base tables, then the
models in their order, each with its columns.  Whatever texts are in it, it reads back as them.
-/

namespace TransformChain

/-!
## The lines
-/

namespace Model

open Yaml

variable {α : Type}

/-- A key with its text, up to the beginning of the next line.  A text of several lines stands
behind the margin. -/
def fieldText (indent : Nat) (key text : String) : List Char :=
  key.toList ++ ": ".toList ++ scalarLines indent text

def columnLines (column : Column) : List Char :=
  "  - ".toList ++ fieldText 6 "name" column.name ++
    match column.type with
    | some type => "    ".toList ++ fieldText 6 "data_type" type
    | none => []

def lines (model : Model) : List Char :=
  "- ".toList ++ fieldText 4 "name" model.name ++
    (if model.description = "" then []
      else "  ".toList ++ fieldText 4 "description" model.description) ++
    (if model.columns.isEmpty then []
      else "  columns:\n".toList ++ model.columns.flatMap columnLines)

def sourceLines (name : TableName) : List Char :=
  "- ".toList ++ fieldText 4 "name" name.schema ++
    "  ".toList ++ fieldText 4 "database" name.database ++
    "  tables:\n".toList ++ "  - ".toList ++ fieldText 6 "name" name.table

def listingLines (sources : List TableName) (models : List Model) : List Char :=
  "version: 2\n".toList ++
    (if sources.isEmpty then [] else "sources:\n".toList ++ sources.flatMap sourceLines) ++
    "models:\n".toList ++ models.flatMap lines

/-!
## Lines of blocks
-/

theorem recordLines_text (indent : Nat) (key text : String) (fields : List (String × Block)) :
    Block.recordLines indent ((key, .text text) :: fields) =
      fieldText (indent + 2) key text ++
        (if fields.isEmpty then [] else margin indent ++ Block.recordLines indent fields) := by
  rw [Block.recordLines_cons, Block.fieldLines]
  simp [fieldText]

theorem recordLines_list (indent : Nat) (key : String) (block : α → Block) {items : List α}
    (hne : items ≠ []) (fields : List (String × Block)) :
    Block.recordLines indent ((key, .list (items.map block)) :: fields) =
      key.toList ++ ":\n".toList ++ Block.itemLines indent (items.map block) ++
        (if fields.isEmpty then [] else margin indent ++ Block.recordLines indent fields) := by
  rw [Block.recordLines_cons, Block.fieldLines_list _ (mt List.map_eq_nil_iff.mp hne)]
  simp

theorem afterDash_fields (indent : Nat) (field : String × Block) (fields : List (String × Block)) :
    Block.afterDash indent (.record (field :: fields)) =
      Block.recordLines indent (field :: fields) :=
  Block.afterDash_record indent (List.cons_ne_nil _ _)

theorem itemLines_map {indent : Nat} {block : α → Block} {lines : α → List Char}
    (h : ∀ item, margin indent ++ "- ".toList ++ Block.afterDash (indent + 2) (block item) =
      lines item) (items : List α) :
    Block.itemLines indent (items.map block) = items.flatMap lines := by
  induction items with
  | nil => rfl
  | cons item items ih =>
      rw [List.map_cons, List.flatMap_cons, ← ih, ← h item, Block.itemLines]
      simp

/-!
## Lines of the list
-/

theorem itemLines_columns (columns : Schema) :
    Block.itemLines 2 (columns.map columnBlock) = columns.flatMap columnLines := by
  refine itemLines_map (fun column => ?_) columns
  rcases column with ⟨name, _ | type⟩
  · rw [columnBlock, afterDash_fields, recordLines_text]
    rfl
  · rw [columnBlock, afterDash_fields, recordLines_text, recordLines_text]
    simp [columnLines, margin, List.replicate]

theorem itemLines_sources (sources : List TableName) :
    Block.itemLines 0 (sources.map sourceBlock) = sources.flatMap sourceLines := by
  refine itemLines_map (fun name => ?_) sources
  have htable := recordLines_list 2 "tables" (fun table : String => .record [("name", .text table)])
    (List.cons_ne_nil name.table []) []
  rw [List.map_singleton] at htable
  rw [sourceBlock, afterDash_fields, recordLines_text, recordLines_text, htable, Block.itemLines,
    afterDash_fields, recordLines_text]
  simp [sourceLines, margin, List.replicate, Block.itemLines]

theorem itemLines_models (models : List Model) :
    Block.itemLines 0 (models.map block) = models.flatMap lines := by
  refine itemLines_map (fun model => ?_) models
  have hmargin (n : Nat) : margin (n + 1) = ' ' :: margin n := rfl
  have hzero : margin 0 = [] := rfl
  rw [block]
  by_cases hdescription : model.description = "" <;> by_cases hcolumns : model.columns = [] <;>
    simp [hdescription, hcolumns, afterDash_fields, recordLines_text, recordLines_list, lines,
      itemLines_columns, hmargin, hzero]

theorem recordLines_version (fields : List (String × Block)) :
    Block.recordLines 0 (("version", .number 2) :: fields) =
      "version: 2\n".toList ++ (if fields.isEmpty then [] else Block.recordLines 0 fields) := by
  have htwo : (Decimal.digitText 2).toList = ['2'] := by
    rw [Decimal.digitText, String.toList_ofList, Nat.toDigits_of_lt_base (by decide)]
    rfl
  have hline : "version: 2\n".toList = "version".toList ++ ':' :: ' ' :: '2' :: ['\n'] := by decide
  rw [Block.recordLines_cons, Block.fieldLines, htwo, hline]
  rfl

theorem recordLines_models {models : List Model} (hne : models ≠ []) :
    Block.recordLines 0 [("models", .list (models.map block))] =
      "models:\n".toList ++ models.flatMap lines := by
  have hline : "models:\n".toList = "models".toList ++ ":\n".toList := by decide
  rw [recordLines_list 0 "models" block hne, itemLines_models, hline]
  exact List.append_nil _

theorem recordLines_sources {sources : List TableName} (hne : sources ≠ []) (field : String × Block) :
    Block.recordLines 0 [("sources", .list (sources.map sourceBlock)), field] =
      "sources:\n".toList ++ sources.flatMap sourceLines ++ Block.recordLines 0 [field] := by
  have hline : "sources:\n".toList = "sources".toList ++ ":\n".toList := by decide
  rw [recordLines_list 0 "sources" sourceBlock hne, itemLines_sources, hline]
  rfl

theorem listing_eq_lines (sources : List TableName) {models : List Model} (hne : models ≠ []) :
    listing sources models = String.ofList (listingLines sources models) := by
  unfold listing Block.document listingLines
  refine congrArg String.ofList ?_
  cases sources with
  | nil =>
    show Block.recordLines 0
      [("version", Block.number 2), ("models", Block.list (models.map block))] = _
    rw [recordLines_version, recordLines_models hne]
    rfl
  | cons name sources =>
    show Block.recordLines 0
      [("version", Block.number 2), ("sources", .list ((name :: sources).map sourceBlock)),
        ("models", Block.list (models.map block))] = _
    rw [recordLines_version, recordLines_sources (List.cons_ne_nil _ _), recordLines_models hne]
    simp

/-!
## What the list says
-/

def columnEntry (column : Column) : Argument :=
  .mapping (("name", .str column.name) ::
    match column.type with
    | some type => [("data_type", .str type)]
    | none => [])

def entry (model : Model) : Argument :=
  .mapping (
    [("name", .str model.name)] ++
    (if model.description = "" then [] else [("description", .str model.description)]) ++
    (if model.columns.isEmpty then []
      else [("columns", .list (model.columns.map columnEntry))]))

def sourceEntry (name : TableName) : Argument :=
  .mapping [("name", .str name.schema), ("database", .str name.database),
    ("tables", .list [.mapping [("name", .str name.table)]])]

/-- The base tables with the schema and database of each, and the models in their order. -/
def listed (sources : List TableName) (models : List Model) : Argument :=
  .mapping (
    [("version", .int 2)] ++
    (if sources.isEmpty then [] else [("sources", .list (sources.map sourceEntry))]) ++
    [("models", .list (models.map entry))])

theorem isKey_of_isAlpha {key : String} (hword : Text.isIdentifier key = true)
    (halpha : key.toList.head?.any Char.isAlpha = true)
    (hatom : isNullText key = false ∧ boolOfText? key = none)
    (hshort : key.toList.length ≤ Scanner.keyLimit) : Scanner.IsKey key := by
  refine ⟨hword, ?_, hshort⟩
  cases hkey : key.toList with
  | nil =>
      rw [hkey] at halpha
      cases halpha
  | cons c rest =>
      rw [hkey] at halpha
      exact readsAsText_of_isAlpha hkey halpha hatom.left hatom.right

theorem isKey_of_mem {key : String} (h : key ∈ ["version", "sources", "models", "name", "database",
    "tables", "description", "columns", "data_type"]) : Scanner.IsKey key := by
  have hkeys : ∀ key ∈ ["version", "sources", "models", "name", "database", "tables",
      "description", "columns", "data_type"],
      Text.isIdentifier key = true ∧ key.toList.head?.any Char.isAlpha = true ∧
        (isNullText key = false ∧ boolOfText? key = none) ∧
          key.toList.length ≤ Scanner.keyLimit := by
    decide
  rcases hkeys key h with ⟨hword, halpha, hatom, hshort⟩
  exact isKey_of_isAlpha hword halpha hatom hshort

theorem areItems_map {block : α → Block} (h : ∀ item, (block item).IsRecord ∧ (block item).IsTree)
    (items : List α) : Block.AreItems (items.map block) := by
  induction items with
  | nil => trivial
  | cons item items ih => exact ⟨(h item).left, (h item).right, ih⟩

theorem itemDepth_map_le {block : α → Block} {n : Nat} (h : ∀ item, (block item).depth ≤ n)
    (items : List α) : Block.itemDepth (items.map block) ≤ n := by
  induction items with
  | nil => exact Nat.zero_le n
  | cons item items ih =>
      rw [List.map_cons, Block.itemDepth, Nat.max_le]
      exact ⟨h item, ih⟩

theorem isTree_columnBlock (column : Column) :
    (columnBlock column).IsRecord ∧ (columnBlock column).IsTree := by
  have hnames : ["name", "data_type"].Nodup := by decide
  rcases column with ⟨name, _ | type⟩
  · exact ⟨trivial, List.cons_ne_nil _ _, List.nodup_singleton _, isKey_of_mem (by decide), trivial,
      trivial⟩
  · exact ⟨trivial, List.cons_ne_nil _ _, hnames, isKey_of_mem (by decide), trivial,
      isKey_of_mem (by decide), trivial, trivial⟩

theorem depth_columnBlock (column : Column) : (columnBlock column).depth ≤ 1 := by
  rcases column with ⟨name, _ | type⟩ <;>
    simp [columnBlock, Block.depth, Block.fieldDepth]

theorem argument_columnBlock (column : Column) :
    (columnBlock column).argument = columnEntry column := by
  rcases column with ⟨name, _ | type⟩ <;> rfl

theorem isTree_sourceBlock (name : TableName) :
    (sourceBlock name).IsRecord ∧ (sourceBlock name).IsTree := by
  have hnames : ["name", "database", "tables"].Nodup := by decide
  have htable : (Block.record [("name", .text name.table)]).IsTree :=
    ⟨List.cons_ne_nil _ _, List.nodup_singleton _, isKey_of_mem (by decide), trivial, trivial⟩
  exact ⟨trivial, List.cons_ne_nil _ _, hnames, isKey_of_mem (by decide), trivial,
    isKey_of_mem (by decide), trivial, isKey_of_mem (by decide),
    ⟨List.cons_ne_nil _ _, trivial, htable, trivial⟩, trivial⟩

theorem depth_sourceBlock (name : TableName) : (sourceBlock name).depth ≤ 3 := by
  simp [sourceBlock, Block.depth, Block.fieldDepth, Block.itemDepth]

theorem isTree_block (model : Model) : (block model).IsRecord ∧ (block model).IsTree := by
  have hname : Block.AreFields [("name", .text model.name)] :=
    ⟨isKey_of_mem (by decide), trivial, trivial⟩
  have hdescription : Block.AreFields
      (if model.description = "" then [] else [("description", .text model.description)]) := by
    split
    · trivial
    · exact ⟨isKey_of_mem (by decide), trivial, trivial⟩
  have hcolumns : Block.AreFields (if model.columns.isEmpty then []
      else [("columns", .list (model.columns.map columnBlock))]) := by
    split
    case isTrue => trivial
    case isFalse hsome =>
      have hne : model.columns.map columnBlock ≠ [] :=
        mt List.map_eq_nil_iff.mp (mt List.isEmpty_iff.mpr hsome)
      exact ⟨isKey_of_mem (by decide), ⟨hne, areItems_map isTree_columnBlock model.columns⟩, trivial⟩
  rw [block]
  refine ⟨trivial, List.cons_ne_nil _ _, ?_,
    Block.areFields_append (Block.areFields_append hname hdescription) hcolumns⟩
  split <;> split <;> simp [Keyed.keys]

theorem depth_block (model : Model) : (block model).depth ≤ 3 := by
  have hcolumns := itemDepth_map_le depth_columnBlock model.columns
  rw [block]
  split <;> split <;>
    simp only [List.append_nil, List.cons_append, List.nil_append, Block.depth, Block.fieldDepth] <;>
    omega

theorem argument_block (model : Model) : (block model).argument = entry model := by
  have hcolumns := Block.itemArguments_map columnBlock model.columns
  simp only [argument_columnBlock] at hcolumns
  rw [block, entry]
  by_cases hdescription : model.description = "" <;> by_cases hnone : model.columns = [] <;>
    simp [hdescription, hnone, Block.argument, Block.fieldArguments, hcolumns]

section Listing

variable {sources : List TableName} {models : List Model}

/-- The fields of the document. -/
def fields (sources : List TableName) (models : List Model) : List (String × Block) :=
  [("version", .number 2)] ++
    (if sources.isEmpty then [] else [("sources", .list (sources.map sourceBlock))]) ++
    [("models", .list (models.map block))]

theorem isTree_fields (sources : List TableName) (hne : models ≠ []) :
    (Block.record (fields sources models)).IsTree := by
  have hnumber : (Block.number 2).IsTree := by
    show Int.ofNat 2 ≤ Decimal.greatestInt
    decide
  have hversion : Block.AreFields [("version", .number 2)] :=
    ⟨isKey_of_mem (by decide), hnumber, trivial⟩
  have hsources : Block.AreFields
      (if sources.isEmpty then [] else [("sources", .list (sources.map sourceBlock))]) := by
    split
    case isTrue => trivial
    case isFalse hsome =>
      have hne : sources.map sourceBlock ≠ [] :=
        mt List.map_eq_nil_iff.mp (mt List.isEmpty_iff.mpr hsome)
      exact ⟨isKey_of_mem (by decide), ⟨hne, areItems_map isTree_sourceBlock sources⟩, trivial⟩
  have hmodels : Block.AreFields [("models", .list (models.map block))] :=
    ⟨isKey_of_mem (by decide), ⟨mt List.map_eq_nil_iff.mp hne, areItems_map isTree_block models⟩,
      trivial⟩
  rw [fields]
  refine ⟨List.cons_ne_nil _ _, ?_,
    Block.areFields_append (Block.areFields_append hversion hsources) hmodels⟩
  split <;> simp [Keyed.keys]

theorem depth_fields (sources : List TableName) (models : List Model) :
    (Block.record (fields sources models)).depth ≤ nestingLimit := by
  have hsources := itemDepth_map_le depth_sourceBlock sources
  have hmodels := itemDepth_map_le depth_block models
  rw [fields]
  split <;>
    simp only [List.append_nil, List.cons_append, List.nil_append, Block.depth, Block.fieldDepth,
      nestingLimit] <;>
    omega

theorem fieldArguments_fields (sources : List TableName) (models : List Model) :
    Argument.mapping (Block.fieldArguments (fields sources models)) = listed sources models := by
  have hsources : Block.itemArguments (sources.map sourceBlock) = sources.map sourceEntry :=
    Block.itemArguments_map sourceBlock sources
  have hmodels := Block.itemArguments_map block models
  simp only [argument_block] at hmodels
  rw [fields, listed]
  split <;>
    simp only [List.append_nil, List.cons_append, List.nil_append, Block.fieldArguments,
      Block.argument, hsources, hmodels] <;>
    rfl

/-- The list reads back as the base tables and models that are listed. -/
theorem decode_listing (sources : List TableName) (hne : models ≠ []) :
    decode argument (listing sources models) = some (listed sources models) := by
  have hread := decode_document (isTree_fields sources hne) (depth_fields sources models)
  rw [fieldArguments_fields] at hread
  exact hread

end Listing

end Model
end TransformChain
