import TransformChain.Proofs.Template.Comparison
import TransformChain.Transform.Library

/-!
# The library's templates as trees

The nodes that the texts of the library read as.  The templates share a few phrases: guards that
end the rendering where an argument is empty, checks of column names, and loops over columns
whose lines end in commas.
-/

namespace TransformChain
namespace Library

open Template

/-!
## Phrases
-/

def ask (function : String) (args : List Expr) : Expr :=
  .call (.var function) args []

def askItself (receiver : Expr) (method : String) : Expr :=
  .call (.attr receiver method) [] []

def abort (message : Expr) : List Node :=
  [.output (ask "raise_exception" [message]), .text "\n"]

def guard (subject message : String) : Node :=
  .branch [(.not (.var subject), abort (.lit (.str message)))] []

def check (args : List Expr) : Node :=
  .run (ask "require_columns" args)

def declare (args : List Expr) : Node :=
  .run (ask "output" args)

def print (subject : String) : Node :=
  .output (.var subject)

def printUnless (condition : Expr) (text : String) : Node :=
  .output (.cond (.not condition) (.lit (.str text)) none)

def isLast : Expr :=
  .attr (.var "loop") "last"

def isFirst : Expr :=
  .attr (.var "loop") "first"

def openEnd : List Node :=
  [.text ",\n"]

def loopEnd : List Node :=
  [printUnless isLast ",", .text "\n"]

def joinedName (first second : String) : Expr :=
  ask "cleanse_name"
    [.binary .concat (.binary .concat (.var first) (.lit (.str "_"))) (.var second)]

def givenName (parts : Expr) : Expr :=
  .cond (.var "alias") (.var "alias") (some (ask "cleanse_name" [parts]))

def inputColumns : Expr :=
  askItself (ask "get_columns" []) "items"

def forEntries (key value : String) (entries : Expr) (body : List Node) : Node :=
  .loop (.pair key value) entries body []

def forItems (item : String) (items : Expr) (body : List Node) : Node :=
  .loop (.single item) items body []

def keptLine (lead : String) (ending : List Node) : List Node :=
  [declare [.var "col", .var "col_type"], .text lead, print "col"] ++ ending

def chosenLine (ending : List Node) : List Node :=
  [declare [.var "col", .index (.var "input_types") (.var "col")], .text "  ", print "col"] ++
    ending

def fromSource : List Node :=
  [.text "FROM ", print "source_table", .text "\n"]

def groupBy (subject : String) : Node :=
  .branch [(.var subject,
    [.text "GROUP BY ", .output (.filter (.var subject) "join" [.lit (.str ", ")]),
      .text "\n"])] []

/-!
## Templates
-/

def castInPlace : List Node :=
  [declare [.var "col", .index (.var "casts") (.var "col")], .text "  CAST(", print "col",
    .text " AS ", .output (.index (.var "casts") (.var "col")), .text ") AS ", print "col"] ++
    loopEnd

def castAdded : List Node :=
  [.assign "new_col" (joinedName "col" "target"), declare [.var "new_col", .var "target"],
    .text "  CAST(", print "col", .text " AS ", print "target", .text ") AS ",
    print "new_col"] ++ loopEnd

def castNodes : List Node :=
  [guard "casts" "cast needs at least one column in casts",
    check [.var "casts"],
    .text "SELECT\n",
    .branch
      [(.var "overwrite_columns",
        [forEntries "col" "col_type" inputColumns
          [.branch [(.binary .mem (.var "col") (.var "casts"), castInPlace)]
            (keptLine "  " loopEnd)]])]
      [forEntries "col" "col_type" inputColumns (keptLine "  " openEnd),
        forEntries "col" "target" (askItself (.var "casts") "items") castAdded]] ++
    fromSource

def conjunction : Node :=
  .output (.cond isFirst (.lit (.str ""))
    (some (.binary .concat (.var "conjunction") (.lit (.str " ")))))

def builtCondition : List Node :=
  [check [.attr (.var "f") "column"], .text "  ", conjunction,
    .output (.attr (.var "f") "column"), .text " ",
    .output (.filter (.attr (.var "f") "operator") "default" [.lit (.str "=")]), .text " ",
    .output (.attr (.var "f") "value"), .text "\n"]

def conditionLine : List Node :=
  [.branch [(.test (.var "f") "mapping" false, builtCondition)]
    [.text "  ", conjunction, print "f", .text "\n"]]

def filterNodes : List Node :=
  [guard "filters" "filter needs at least one condition",
    .text "SELECT\n",
    forEntries "col" "col_type" inputColumns (keptLine "  " loopEnd),
    .text "FROM ", print "source_table", .text "\nWHERE\n",
    forItems "f" (.var "filters") conditionLine]

def dropColumnsNodes : List Node :=
  [.run (ask "mutually_exclusive" [.lit (.str "include_cols"), .lit (.str "exclude_cols")]),
    .branch
      [(.var "include_cols",
        [check [.var "include_cols"], .assign "keep" (.var "include_cols")]),
        (.var "exclude_cols",
        [check [.var "exclude_cols"],
          .assign "keep" (ask "columns_except" [.var "exclude_cols"])])]
      (abort (.lit (.str "drop_columns needs include_cols or exclude_cols"))),
    guard "keep" "drop_columns would remove every column",
    .assign "input_types" (ask "get_columns" []),
    .text "SELECT\n",
    forItems "col" (.var "keep") (chosenLine loopEnd)] ++ fromSource

def renameLine : List Node :=
  [declare [.index (.var "renames") (.var "col"), .var "col_type"], .text "  ", print "col",
    .text " AS ", .output (.index (.var "renames") (.var "col"))] ++ loopEnd

def renameNodes : List Node :=
  [guard "renames" "rename needs at least one column in renames",
    check [.var "renames"],
    .text "SELECT\n",
    forEntries "col" "col_type" inputColumns
      [.branch [(.binary .mem (.var "col") (.var "renames"), renameLine)]
        (keptLine "  " loopEnd)]] ++ fromSource

def concatNodes : List Node :=
  [guard "concat_list" "concat needs at least one item in concat_list",
    .assign "new_col" (givenName (.binary .concat (.lit (.str "CONCAT_"))
      (.filter (.var "concat_list") "join" [.lit (.str "_")]))),
    .text "SELECT\n",
    forEntries "col" "col_type" inputColumns (keptLine "  " openEnd),
    declare [.var "new_col", .lit (.str "STRING")],
    .text "  CONCAT(", .output (.filter (.var "concat_list") "join" [.lit (.str ", ")]),
    .text ") AS ", print "new_col", .text "\nFROM ", print "source_table", .text "\n"]

def truncatedInPlace : List Node :=
  [.text "  DATE_TRUNC(", .output (ask "quote" [.index (.var "dates") (.var "col")]),
    .text ", ", print "col", .text ") AS ", print "col"] ++ loopEnd

def truncatedLine : List Node :=
  [declare [.var "col", .var "col_type"],
    .branch [(.binary .mem (.var "col") (.var "dates"), truncatedInPlace)]
      ([.text "  ", print "col"] ++ loopEnd)]

def truncatedAdded : List Node :=
  [.assign "new_col" (joinedName "col" "part"),
    declare [.var "new_col", .index (.var "input_types") (.var "col")],
    .text "  DATE_TRUNC(", .output (ask "quote" [.var "part"]), .text ", ", print "col",
    .text ") AS ", print "new_col"] ++ loopEnd

def datetruncNodes : List Node :=
  [guard "dates" "datetrunc needs at least one column in dates",
    check [.var "dates"],
    .assign "input_types" (ask "get_columns" []),
    .text "SELECT\n",
    .branch
      [(.var "overwrite_columns",
        [forEntries "col" "col_type" (askItself (.var "input_types") "items") truncatedLine])]
      [forEntries "col" "col_type" (askItself (.var "input_types") "items")
          (keptLine "  " openEnd),
        forEntries "col" "part" (askItself (.var "dates") "items") truncatedAdded]] ++
    fromSource

def shifted (column name : String) : List Node :=
  [.text "  DATEADD(", print "interval_type", .text ", ", print "offset", .text ", ",
    print column, .text ") AS ", print name]

/-- A line of the columns under their own names; a comma follows the last one if the shifted
column comes after it. -/
def shiftedLine : List Node :=
  [declare [.var "col", .var "col_type"],
    .branch
      [(.binary .and (.var "overwrite_columns") (.binary .eq (.var "col") (.var "date")),
        shifted "col" "col" ++ loopEnd)]
      [.text "  ", print "col",
        printUnless (.binary .and isLast (.var "overwrite_columns")) ",", .text "\n"]]

def dateaddNodes : List Node :=
  [check [.var "date"],
    .assign "input_types" (ask "get_columns" []),
    .assign "new_col" (givenName (.binary .concat (.binary .concat (.binary .concat (.var "date")
      (.lit (.str "_add"))) (.var "offset")) (.var "interval_type"))),
    .text "SELECT\n",
    forEntries "col" "col_type" (askItself (.var "input_types") "items") shiftedLine,
    .branch
      [(.not (.var "overwrite_columns"),
        [declare [.var "new_col", .index (.var "input_types") (.var "date")]] ++
          shifted "date" "new_col" ++ [.text "\n"])]
      []] ++ fromSource

/-- The line of one aggregate; no comma follows the last one of the last column. -/
def aggregateLine : List Node :=
  [.assign "new_col" (joinedName "col" "agg"), declare [.var "new_col"], .text "  ",
    .output (.filter (.var "agg") "upper" []), .text "(", print "col", .text ") AS ",
    print "new_col", printUnless (.binary .and isLast (.attr (.var "outer") "last")) ",",
    .text "\n"]

def aggregateLines : List Node :=
  [.assign "outer" (.var "loop"),
    .assign "funcs" (.cond (.test (.var "aggs") "string" false) (.list [.var "aggs"])
      (some (.var "aggs"))),
    .branch [(.not (.var "funcs"),
      abort (.binary .concat (.lit (.str "no aggregate functions given for ")) (.var "col")))] [],
    forItems "agg" (.var "funcs") aggregateLine]

def aggregateNodes : List Node :=
  [guard "aggregations" "aggregate needs at least one column in aggregations",
    check [.var "group_by"],
    check [.var "aggregations"],
    .assign "input_types" (ask "get_columns" []),
    .text "SELECT\n",
    forItems "col" (.var "group_by") (chosenLine openEnd),
    forEntries "col" "aggs" (askItself (.var "aggregations") "items") aggregateLines] ++
    fromSource ++ [groupBy "group_by"]

def pivotLine : List Node :=
  [.assign "new_col" (joinedName "value_column" "val"), declare [.var "new_col"], .text "  ",
    .output (.filter (.var "agg_method") "upper" []), .text "(CASE WHEN ",
    print "pivot_column", .text " = ", .output (ask "quote" [.var "val"]), .text " THEN ",
    print "value_column", .text " END) AS ", print "new_col"] ++ loopEnd

def pivotNodes : List Node :=
  [guard "list_of_vals" "pivot needs at least one value in list_of_vals",
    check [.var "dimensions"],
    check [.list [.var "pivot_column", .var "value_column"]],
    .assign "input_types" (ask "get_columns" []),
    .text "SELECT\n",
    forItems "col" (.var "dimensions") (chosenLine openEnd),
    forItems "val" (.var "list_of_vals") pivotLine] ++ fromSource ++ [groupBy "dimensions"]

def joinTypes : List String :=
  ["LEFT", "RIGHT", "INNER", "FULL", "FULL OUTER"]

def joinedLine : List Node :=
  [.assign "new_col" (joinedName "prefix" "col"), declare [.var "new_col", .var "col_type"],
    .text "  r.", print "col", .text " AS ", print "new_col"] ++ loopEnd

def pairEntry : List Node :=
  [printUnless isFirst "AND ", .text "l.", print "left", .text " = r.", print "right",
    printUnless isLast " "]

def joinNodes : List Node :=
  [guard "join_columns" "join needs at least one column pair in join_columns",
    .branch
      [(.binary .notMem (.filter (.var "join_type") "upper" [])
          (.list (joinTypes.map fun type => .lit (.str type))),
        abort (.binary .concat (.lit (.str "unsupported join_type ")) (.var "join_type")))]
      [],
    check [.var "join_columns"],
    check [askItself (.var "join_columns") "values", .var "join_table"],
    .assign "prefix" (.cond (.var "join_prefix") (.var "join_prefix")
      (some (ask "dataset_name" [.var "join_table"]))),
    .text "SELECT\n",
    forEntries "col" "col_type" inputColumns (keptLine "  l." openEnd),
    forEntries "col" "col_type" (askItself (ask "get_columns" [.var "join_table"]) "items")
      joinedLine,
    .text "FROM ", print "source_table", .text " l\n",
    .output (.filter (.var "join_type") "upper" []), .text " JOIN ", print "join_table",
    .text " r\n  ON ",
    forEntries "left" "right" (askItself (.var "join_columns") "items")
      pairEntry]

def directionEntry : List Node :=
  [print "col", .text " ", .output (.filter (.var "direction") "upper" []),
    printUnless isLast ", "]

def orderNodes : List Node :=
  [guard "order_by" "order needs at least one column in order_by",
    check [.var "order_by"],
    .text "SELECT\n",
    forEntries "col" "col_type" inputColumns (keptLine "  " loopEnd),
    .text "FROM ", print "source_table", .text "\nORDER BY ",
    forEntries "col" "direction" (askItself (.var "order_by") "items")
      directionEntry]

/-!
## Reading

The characters of a template text are read off its lines, so that the parser runs on a list of
characters and no text has to be taken apart.
-/

theorem toList_literal {s : String} {chars : List Char} (h : s = String.ofList chars) :
    s.toList = chars := by
  rw [h, String.toList_ofList]

theorem toList_append {s t : String} {first second : List Char} (hs : s.toList = first)
    (ht : t.toList = second) : (s ++ t).toList = first ++ second := by
  rw [String.toList_append, hs, ht]

theorem toList_text_nil : (text []).toList = [] := by
  unfold text
  rw [String.toList_join]
  rfl

theorem toList_text_cons {line : String} {lines : List String} {first rest : List Char}
    (hline : line.toList = first) (hlines : (text lines).toList = rest) :
    (text (line :: lines)).toList = first ++ '\n' :: rest := by
  unfold text at *
  rw [String.toList_join] at *
  simp [hline, ← hlines]

/-- The transforms whose templates have a fixed text, each with its tree. -/
def trees : List (Listing × String × List Node) := [
  (castListing, castBody, castNodes),
  (filterListing, filterBody, filterNodes),
  (dropColumnsListing, dropColumnsBody, dropColumnsNodes),
  (renameListing, renameBody, renameNodes),
  (concatListing, concatBody, concatNodes),
  (datetruncListing, datetruncBody, datetruncNodes),
  (dateaddListing, dateaddBody, dateaddNodes),
  (aggregateListing, aggregateBody, aggregateNodes),
  (pivotListing, pivotBody, pivotNodes),
  (joinListing, joinBody, joinNodes),
  (orderListing, orderBody, orderNodes)]

theorem parse_of_mem_trees {listing : Listing} {body : String} {nodes : List Node}
    (h : (listing, body, nodes) ∈ trees) :
    Body.parse listing.name body = .ok ⟨nodes, []⟩ := by
  simp only [trees, List.mem_cons, List.not_mem_nil, or_false, Prod.mk.injEq] at h
  rcases h with h | h | h | h | h | h | h | h | h | h | h
  all_goals
    rcases h with ⟨rfl, rfl, rfl⟩
    apply Body.parse_of_readsAs
    · simp only [castBody, filterBody, dropColumnsBody, renameBody, concatBody, datetruncBody,
        dateaddBody, aggregateBody, pivotBody, joinBody, orderBody, block, put]
      repeat'
        first
        | with_reducible apply toList_text_cons
        | with_reducible apply toList_text_nil
        | with_reducible apply toList_append
        | exact toList_literal rfl
    · decide +kernel

theorem entries_eq :
    entries = trees.map (fun entry => (entry.1, entry.2.1)) ++ [(applyListing, applyBody)] := rfl

theorem exists_mem_trees {listing : Listing} {body : String} (h : (listing, body) ∈ entries)
    (hname : listing.name ≠ "apply") : ∃ nodes, (listing, body, nodes) ∈ trees := by
  rw [entries_eq, List.mem_append, List.mem_map, List.mem_singleton] at h
  rcases h with ⟨⟨found, text, nodes⟩, hmem, heq⟩ | heq
  · cases heq
    exact ⟨nodes, hmem⟩
  · cases heq
    exact absurd rfl hname

theorem eq_apply_of_mem_entries {listing : Listing} {body : String}
    (h : (listing, body) ∈ entries) (hname : listing.name = "apply") :
    listing = applyListing ∧ body = applyBody := by
  have hother : ∀ entry ∈ trees, entry.1.name ≠ "apply" := by decide
  rw [entries_eq, List.mem_append, List.mem_map, List.mem_singleton] at h
  rcases h with ⟨entry, hmem, heq⟩ | heq
  · cases heq
    exact absurd hname (hother entry hmem)
  · cases heq
    exact ⟨rfl, rfl⟩

def transformOf (listing : Listing) (body : String) (nodes : List Node) : Transform :=
  ⟨listing.name, listing.description, listing.tags, listing.parameters,
    ⟨listing.name, body, ⟨nodes, []⟩⟩⟩

theorem create_of_mem_trees {listing : Listing} {body : String} {nodes : List Node}
    (h : (listing, body, nodes) ∈ trees) :
    Transform.create listing body = .ok (transformOf listing body nodes) := by
  have hnames : ∀ entry ∈ trees, Transform.nameFault? [] entry.1.parameters = none := by
    decide
  unfold Transform.create Template.parse
  rw [hnames _ h, parse_of_mem_trees h]
  rfl

theorem exists_tree_of_create {listing : Listing} {body : String} {transform : Transform}
    (hentry : (listing, body) ∈ entries) (hname : listing.name ≠ "apply")
    (hcreate : Transform.create listing body = .ok transform) :
    ∃ nodes, (listing, body, nodes) ∈ trees ∧ transform = transformOf listing body nodes := by
  rcases exists_mem_trees hentry hname with ⟨nodes, hmem⟩
  rw [create_of_mem_trees hmem, Except.ok.injEq] at hcreate
  exact ⟨nodes, hmem, hcreate.symm⟩

end Library
end TransformChain
