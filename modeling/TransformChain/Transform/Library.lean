import TransformChain.Transform.Basic

/-!
# The transform library

The transforms that every registry of a session starts with: their listings and their templates.
A template line ends with a line feed.
-/

namespace TransformChain
namespace Library

def text (lines : List String) : String :=
  String.join (lines.map (fun line => line ++ "\n"))

def block (statement : String) : String :=
  "\x7b% " ++ statement ++ " %\x7d"

def put (expression : String) : String :=
  "\x7b\x7b " ++ expression ++ " \x7d\x7d"

def needed (name : String) (shape : Shape) (description : String) : Parameter :=
  ⟨name, shape, true, none, description⟩

def allowed (name : String) (shape : Shape) (default : Option Argument) (description : String) :
    Parameter :=
  ⟨name, shape, false, default, description⟩

/-!
## cast
-/

def castListing : Listing where
  name := "cast"
  description :=
    "Cast columns to new types, in place or as new <column>_<type> columns."
  tags := ["column", "conversion"]
  parameters := [
    needed "casts" .mapping "Column name to target SQL type.",
    allowed "overwrite_columns" .scalar (some (.bool false))
      "Replace the source columns instead of appending new ones."]

def castBody : String :=
  text [
    block "if not casts",
    put "raise_exception('cast needs at least one column in casts')",
    block "endif",
    block "do require_columns(casts)",
    "SELECT",
    block "if overwrite_columns",
    block "for col, col_type in get_columns().items()",
    block "if col in casts",
    block "do output(col, casts[col])",
    "  CAST(" ++ put "col" ++ " AS " ++ put "casts[col]" ++ ") AS " ++ put "col" ++
      put "',' if not loop.last",
    block "else",
    block "do output(col, col_type)",
    "  " ++ put "col" ++ put "',' if not loop.last",
    block "endif",
    block "endfor",
    block "else",
    block "for col, col_type in get_columns().items()",
    block "do output(col, col_type)",
    "  " ++ put "col" ++ ",",
    block "endfor",
    block "for col, target in casts.items()",
    block "set new_col = cleanse_name(col ~ '_' ~ target)",
    block "do output(new_col, target)",
    "  CAST(" ++ put "col" ++ " AS " ++ put "target" ++ ") AS " ++ put "new_col" ++
      put "',' if not loop.last",
    block "endfor",
    block "endif",
    "FROM " ++ put "source_table"]

/-!
## filter
-/

def filterListing : Listing where
  name := "filter"
  description :=
    "Keep the rows matching every condition."
  tags := ["row"]
  parameters := [
    needed "filters" .list "SQL predicates, or mappings with column, operator and value.",
    allowed "conjunction" .scalar (some (.str "AND")) "Keyword joining the conditions."]

def filterBody : String :=
  text [
    block "if not filters",
    put "raise_exception('filter needs at least one condition')",
    block "endif",
    "SELECT",
    block "for col, col_type in get_columns().items()",
    block "do output(col, col_type)",
    "  " ++ put "col" ++ put "',' if not loop.last",
    block "endfor",
    "FROM " ++ put "source_table",
    "WHERE",
    block "for f in filters",
    block "if f is mapping",
    block "do require_columns(f.column)",
    "  " ++ put "'' if loop.first else conjunction ~ ' '" ++ put "f.column" ++ " " ++
      put "f.operator | default('=')" ++ " " ++ put "f.value",
    block "else",
    "  " ++ put "'' if loop.first else conjunction ~ ' '" ++ put "f",
    block "endif",
    block "endfor"]

/-!
## drop_columns
-/

def dropColumnsListing : Listing where
  name := "drop_columns"
  description :=
    "Keep only the listed columns, or every column except the listed ones."
  tags := ["column"]
  parameters := [
    allowed "include_cols" .list none "Columns to keep, in output order.",
    allowed "exclude_cols" .list none "Columns to remove; the rest keep their order."]

def dropColumnsBody : String :=
  text [
    block "do mutually_exclusive('include_cols', 'exclude_cols')",
    block "if include_cols",
    block "do require_columns(include_cols)",
    block "set keep = include_cols",
    block "elif exclude_cols",
    block "do require_columns(exclude_cols)",
    block "set keep = columns_except(exclude_cols)",
    block "else",
    put "raise_exception('drop_columns needs include_cols or exclude_cols')",
    block "endif",
    block "if not keep",
    put "raise_exception('drop_columns would remove every column')",
    block "endif",
    block "set input_types = get_columns()",
    "SELECT",
    block "for col in keep",
    block "do output(col, input_types[col])",
    "  " ++ put "col" ++ put "',' if not loop.last",
    block "endfor",
    "FROM " ++ put "source_table"]

/-!
## rename
-/

def renameListing : Listing where
  name := "rename"
  description :=
    "Rename columns."
  tags := ["column"]
  parameters := [
    needed "renames" .mapping "Old column name to new column name."]

def renameBody : String :=
  text [
    block "if not renames",
    put "raise_exception('rename needs at least one column in renames')",
    block "endif",
    block "do require_columns(renames)",
    "SELECT",
    block "for col, col_type in get_columns().items()",
    block "if col in renames",
    block "do output(renames[col], col_type)",
    "  " ++ put "col" ++ " AS " ++ put "renames[col]" ++ put "',' if not loop.last",
    block "else",
    block "do output(col, col_type)",
    "  " ++ put "col" ++ put "',' if not loop.last",
    block "endif",
    block "endfor",
    "FROM " ++ put "source_table"]

/-!
## concat
-/

def concatListing : Listing where
  name := "concat"
  description :=
    "Append a column concatenating columns and literals."
  tags := ["column", "string"]
  parameters := [
    needed "concat_list" .list "Columns or quoted string literals, in order.",
    allowed "alias" .scalar none "Name of the new column."]

def concatBody : String :=
  text [
    block "if not concat_list",
    put "raise_exception('concat needs at least one item in concat_list')",
    block "endif",
    block "set new_col = alias if alias else cleanse_name('CONCAT_' ~ (concat_list | join('_')))",
    "SELECT",
    block "for col, col_type in get_columns().items()",
    block "do output(col, col_type)",
    "  " ++ put "col" ++ ",",
    block "endfor",
    block "do output(new_col, 'STRING')",
    "  CONCAT(" ++ put "concat_list | join(', ')" ++ ") AS " ++ put "new_col",
    "FROM " ++ put "source_table"]

/-!
## datetrunc
-/

def datetruncListing : Listing where
  name := "datetrunc"
  description :=
    "Truncate date columns to a date part."
  tags := ["column", "date"]
  parameters := [
    needed "dates" .mapping "Column name to date part, e.g. month.",
    allowed "overwrite_columns" .scalar (some (.bool false)) ""]

def datetruncBody : String :=
  text [
    block "if not dates",
    put "raise_exception('datetrunc needs at least one column in dates')",
    block "endif",
    block "do require_columns(dates)",
    block "set input_types = get_columns()",
    "SELECT",
    block "if overwrite_columns",
    block "for col, col_type in input_types.items()",
    block "do output(col, col_type)",
    block "if col in dates",
    "  DATE_TRUNC(" ++ put "quote(dates[col])" ++ ", " ++ put "col" ++ ") AS " ++ put "col" ++
      put "',' if not loop.last",
    block "else",
    "  " ++ put "col" ++ put "',' if not loop.last",
    block "endif",
    block "endfor",
    block "else",
    block "for col, col_type in input_types.items()",
    block "do output(col, col_type)",
    "  " ++ put "col" ++ ",",
    block "endfor",
    block "for col, part in dates.items()",
    block "set new_col = cleanse_name(col ~ '_' ~ part)",
    block "do output(new_col, input_types[col])",
    "  DATE_TRUNC(" ++ put "quote(part)" ++ ", " ++ put "col" ++ ") AS " ++ put "new_col" ++
      put "',' if not loop.last",
    block "endfor",
    block "endif",
    "FROM " ++ put "source_table"]

/-!
## dateadd
-/

def dateaddListing : Listing where
  name := "dateadd"
  description :=
    "Add an interval to a date column."
  tags := ["column", "date"]
  parameters := [
    needed "date" .scalar "Date column to shift.",
    needed "offset" .scalar "Number of intervals to add; may be negative.",
    needed "interval_type" .scalar "Interval unit, e.g. day.",
    allowed "alias" .scalar none "",
    allowed "overwrite_columns" .scalar (some (.bool false)) ""]

def dateaddBody : String :=
  text [
    block "do require_columns(date)",
    block "set input_types = get_columns()",
    block "set new_col = alias if alias else cleanse_name(date ~ '_add' ~ offset ~ interval_type)",
    "SELECT",
    block "for col, col_type in input_types.items()",
    block "do output(col, col_type)",
    block "if overwrite_columns and col == date",
    "  DATEADD(" ++ put "interval_type" ++ ", " ++ put "offset" ++ ", " ++ put "col" ++
      ") AS " ++ put "col" ++ put "',' if not loop.last",
    block "else",
    "  " ++ put "col" ++ put "',' if not (loop.last and overwrite_columns)",
    block "endif",
    block "endfor",
    block "if not overwrite_columns",
    block "do output(new_col, input_types[date])",
    "  DATEADD(" ++ put "interval_type" ++ ", " ++ put "offset" ++ ", " ++ put "date" ++
      ") AS " ++ put "new_col",
    block "endif",
    "FROM " ++ put "source_table"]

/-!
## aggregate
-/

def aggregateListing : Listing where
  name := "aggregate"
  description :=
    "Group rows and aggregate columns into <column>_<function> columns."
  tags := ["table", "aggregation"]
  parameters := [
    needed "group_by" .list "Grouping columns.",
    needed "aggregations" .mapping "Column name to a list of aggregate functions."]

def aggregateBody : String :=
  text [
    block "if not aggregations",
    put "raise_exception('aggregate needs at least one column in aggregations')",
    block "endif",
    block "do require_columns(group_by)",
    block "do require_columns(aggregations)",
    block "set input_types = get_columns()",
    "SELECT",
    block "for col in group_by",
    block "do output(col, input_types[col])",
    "  " ++ put "col" ++ ",",
    block "endfor",
    block "for col, aggs in aggregations.items()",
    block "set outer = loop",
    block "set funcs = [aggs] if aggs is string else aggs",
    block "if not funcs",
    put "raise_exception('no aggregate functions given for ' ~ col)",
    block "endif",
    block "for agg in funcs",
    block "set new_col = cleanse_name(col ~ '_' ~ agg)",
    block "do output(new_col)",
    "  " ++ put "agg | upper" ++ "(" ++ put "col" ++ ") AS " ++ put "new_col" ++
      put "',' if not (loop.last and outer.last)",
    block "endfor",
    block "endfor",
    "FROM " ++ put "source_table",
    block "if group_by",
    "GROUP BY " ++ put "group_by | join(', ')",
    block "endif"]

/-!
## pivot
-/

def pivotListing : Listing where
  name := "pivot"
  description :=
    "Turn the distinct values of one column into columns."
  tags := ["table", "reshape"]
  parameters := [
    needed "dimensions" .list "Columns to group by.",
    needed "pivot_column" .scalar "",
    needed "value_column" .scalar "",
    allowed "agg_method" .scalar (some (.str "SUM")) "",
    needed "list_of_vals" .list "Values of pivot_column that become columns."]

def pivotBody : String :=
  text [
    block "if not list_of_vals",
    put "raise_exception('pivot needs at least one value in list_of_vals')",
    block "endif",
    block "do require_columns(dimensions)",
    block "do require_columns([pivot_column, value_column])",
    block "set input_types = get_columns()",
    "SELECT",
    block "for col in dimensions",
    block "do output(col, input_types[col])",
    "  " ++ put "col" ++ ",",
    block "endfor",
    block "for val in list_of_vals",
    block "set new_col = cleanse_name(value_column ~ '_' ~ val)",
    block "do output(new_col)",
    "  " ++ put "agg_method | upper" ++ "(CASE WHEN " ++ put "pivot_column" ++ " = " ++
      put "quote(val)" ++ " THEN " ++ put "value_column" ++ " END) AS " ++ put "new_col" ++
      put "',' if not loop.last",
    block "endfor",
    "FROM " ++ put "source_table",
    block "if dimensions",
    "GROUP BY " ++ put "dimensions | join(', ')",
    block "endif"]

/-!
## join
-/

def joinListing : Listing where
  name := "join"
  description :=
    "Join a second dataset, prefixing its columns."
  tags := ["table", "join"]
  parameters := [
    needed "join_table" .dataset "Table name or compiled chain to join.",
    needed "join_columns" .mapping "Column of this dataset to column of join_table.",
    allowed "join_type" .scalar (some (.str "LEFT")) "",
    allowed "join_prefix" .scalar none
      "Prefix for the joined columns, defaults to the joined table name."]

def joinBody : String :=
  text [
    block "if not join_columns",
    put "raise_exception('join needs at least one column pair in join_columns')",
    block "endif",
    block "if (join_type | upper) not in ['LEFT', 'RIGHT', 'INNER', 'FULL', 'FULL OUTER']",
    put "raise_exception('unsupported join_type ' ~ join_type)",
    block "endif",
    block "do require_columns(join_columns)",
    block "do require_columns(join_columns.values(), join_table)",
    block "set prefix = join_prefix if join_prefix else dataset_name(join_table)",
    "SELECT",
    block "for col, col_type in get_columns().items()",
    block "do output(col, col_type)",
    "  l." ++ put "col" ++ ",",
    block "endfor",
    block "for col, col_type in get_columns(join_table).items()",
    block "set new_col = cleanse_name(prefix ~ '_' ~ col)",
    block "do output(new_col, col_type)",
    "  r." ++ put "col" ++ " AS " ++ put "new_col" ++ put "',' if not loop.last",
    block "endfor",
    "FROM " ++ put "source_table" ++ " l",
    put "join_type | upper" ++ " JOIN " ++ put "join_table" ++ " r",
    "  ON " ++ block "for left, right in join_columns.items()" ++
      put "'AND ' if not loop.first" ++ "l." ++ put "left" ++ " = r." ++ put "right" ++
      put "' ' if not loop.last" ++ block "endfor"]

/-!
## order
-/

def orderListing : Listing where
  name := "order"
  description :=
    "Sort rows."
  tags := ["row"]
  parameters := [
    needed "order_by" .mapping "Column name to ASC or DESC."]

def orderBody : String :=
  text [
    block "if not order_by",
    put "raise_exception('order needs at least one column in order_by')",
    block "endif",
    block "do require_columns(order_by)",
    "SELECT",
    block "for col, col_type in get_columns().items()",
    block "do output(col, col_type)",
    "  " ++ put "col" ++ put "',' if not loop.last",
    block "endfor",
    "FROM " ++ put "source_table",
    "ORDER BY " ++ block "for col, direction in order_by.items()" ++ put "col" ++ " " ++
      put "direction | upper" ++ put "', ' if not loop.last" ++ block "endfor"]

/-!
## apply
-/

def applyListing : Listing where
  name := "apply"
  description :=
    "Apply custom templated SQL; reference the input as source_table."
  tags := ["custom"]
  parameters := [
    needed "sql" .scalar "Template text rendered in place.",
    allowed "output_columns" .any none
      "Columns the SQL produces, as a list or a name to type mapping."]

def applyBody : String :=
  text [
    block "if output_columns",
    block "do output_all(output_columns)",
    block "endif",
    put "render(sql)"]

/-!
## All of them
-/

def entries : List (Listing × String) := [
  (castListing, castBody),
  (filterListing, filterBody),
  (dropColumnsListing, dropColumnsBody),
  (renameListing, renameBody),
  (concatListing, concatBody),
  (datetruncListing, datetruncBody),
  (dateaddListing, dateaddBody),
  (aggregateListing, aggregateBody),
  (pivotListing, pivotBody),
  (joinListing, joinBody),
  (orderListing, orderBody),
  (applyListing, applyBody)]

end Library
end TransformChain
