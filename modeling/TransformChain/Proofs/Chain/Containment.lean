import TransformChain.Proofs.Chain.Nesting
import TransformChain.Proofs.Chain.Workspaces
import TransformChain.Proofs.Sql.Scanning

/-!
# Containment of steps

The steps of a statement with common table expressions stand in parentheses, each between line
feeds.  So where the steps are closed texts of their own, however they end, each of them fills one
pair of parentheses at the top level of the statement, and the statement is closed again.
-/

namespace TransformChain

/-!
## Columns that are selected
-/

namespace Sql

/-- The name of a column that can stand in a selection: it is closed and holds neither what begins
a comment nor a line feed. -/
structure IsColumnText (name : String) : Prop where
  closed : Closed name
  noLineComment : ¬['-', '-'] <:+: name.toList
  noBlockComment : ¬['/', '*'] <:+: name.toList
  noLineFeed : '\n' ∉ name.toList

def ScansToPlain (text : String) : Prop :=
  ∃ mode, scan .start text.toList = some ⟨mode, 0⟩ ∧ mode.isPlain = true

theorem IsColumnText.scansToPlain {name : String} (h : IsColumnText name) : ScansToPlain name := by
  rcases h.closed.exists_mode with ⟨mode, hscan, hplain | rfl⟩
  · exact ⟨mode, hscan, hplain⟩
  · rcases dashes_of_lineComment hscan rfl with hstart | ⟨hstart, -⟩ | hinfix
    · cases hstart
    · cases hstart
    · exact absurd hinfix h.noLineComment

theorem scansToPlain_join {names : List String} (h : ∀ name ∈ names, ScansToPlain name) :
    ScansToPlain (Text.join ", " names) := by
  induction names with
  | nil => exact ⟨.plain, rfl, rfl⟩
  | cons name rest ih =>
      obtain ⟨hname, hrest⟩ := List.forall_mem_cons.mp h
      cases rest with
      | nil => exact hname
      | cons second rest =>
          rcases hname with ⟨mode, hscan, hmode⟩
          rcases ih hrest with ⟨last, hlast, hplain⟩
          have hcomma : scan ⟨mode, 0⟩ ", ".toList = some .start :=
            scan_behind_plain hmode (by decide) (List.all_eq_true.mp (by decide)) 0
          refine ⟨last, ?_, hplain⟩
          rw [Text.join_cons_of_ne_nil _ _ (List.cons_ne_nil _ _), String.append_assoc,
            String.toList_append, String.toList_append, scan_append hscan,
            scan_append hcomma]
          exact hlast

theorem scan_finalSelect {columns : Schema} {relation : String}
    (hnames : ∀ name ∈ columns.names, IsColumnText name)
    (hrelation : ∀ c ∈ relation.toList, isOrdinary c = true) :
    scan .start (finalSelect columns relation).toList = some .start := by
  rcases scansToPlain_join fun name hname => (hnames name hname).scansToPlain with
    ⟨mode, hscan, hmode⟩
  have hselect : scan .start "SELECT ".toList = some .start :=
    scan_of_isOrdinary (List.all_eq_true.mp (by decide)) 0
  have hfrom : ∀ c ∈ "\nFROM ".toList ++ relation.toList, isOrdinary c = true :=
    List.forall_mem_append.mpr ⟨List.all_eq_true.mp (by decide), hrelation⟩
  have hsql : (finalSelect columns relation).toList =
      "SELECT ".toList ++
        ((Text.join ", " columns.names).toList ++ ("\nFROM ".toList ++ relation.toList)) := by
    simp [finalSelect]
  rw [hsql, scan_append hselect, scan_append hscan]
  exact scan_behind_plain hmode (List.append_ne_nil_of_left_ne_nil (by decide) _) hfrom 0

/-!
## Steps in parentheses
-/

theorem toList_subquery (sql : String) : (subquery sql).toList = '(' :: (lines sql ++ [')']) := by
  simp [subquery, lines]

theorem outline_subquery {sql : String} (h : Closed sql) :
    outline (subquery sql) = some ⟨.start, "()".toList, [lines sql], []⟩ := by
  unfold outline
  rw [toList_subquery, outlineFrom_group h.scan_lines]
  rfl

theorem outlineFrom_tableExpression {fragment : StepFragment}
    (hname : Text.isIdentifier fragment.name = true) (hsql : Closed fragment.sql)
    (outside : List Char) (groups : List (List Char)) :
    outlineFrom ⟨.start, outside, groups, []⟩ (tableExpression fragment).toList =
      some ⟨.start, outside ++ (fragment.name ++ " AS ()").toList,
        groups ++ [lines fragment.sql], []⟩ := by
  have hhead : ∀ c ∈ (fragment.name ++ " AS ").toList, isOrdinary c = true := by
    rw [String.toList_append]
    exact List.forall_mem_append.mpr
      ⟨isOrdinary_of_isIdentifier hname, List.all_eq_true.mp (by decide)⟩
  have htext : (tableExpression fragment).toList =
      (fragment.name ++ " AS ").toList ++ '(' :: (lines fragment.sql ++ [')']) := by
    simp [tableExpression, lines]
  rw [htext, outlineFrom_append (outlineFrom_of_isOrdinary hhead),
    outlineFrom_group hsql.scan_lines]
  simp

theorem outlineFrom_tableExpressions {fragments : List StepFragment}
    (hnames : ∀ fragment ∈ fragments, Text.isIdentifier fragment.name = true)
    (hclosed : ∀ fragment ∈ fragments, Closed fragment.sql)
    (outside : List Char) (groups : List (List Char)) :
    outlineFrom ⟨.start, outside, groups, []⟩
        (Text.join ",\n" (fragments.map tableExpression)).toList =
      some ⟨.start,
        outside ++
          (Text.join ",\n" (fragments.map fun fragment => fragment.name ++ " AS ()")).toList,
        groups ++ fragments.map fun fragment => lines fragment.sql, []⟩ := by
  induction fragments generalizing outside groups with
  | nil => simp [Text.join, outlineFrom]
  | cons fragment rest ih =>
      obtain ⟨hname, hnames⟩ := List.forall_mem_cons.mp hnames
      obtain ⟨hsql, hclosed⟩ := List.forall_mem_cons.mp hclosed
      have hfirst := outlineFrom_tableExpression hname hsql outside groups
      cases rest with
      | nil => exact hfirst
      | cons second rest =>
          have hcomma : ∀ c ∈ ",\n".toList, isOrdinary c = true :=
            List.all_eq_true.mp (by decide)
          simp only [List.map_cons] at ih ⊢
          rw [Text.join_cons_of_ne_nil _ _ (List.cons_ne_nil _ _),
            Text.join_cons_of_ne_nil _ _ (List.cons_ne_nil _ _), String.append_assoc,
            String.toList_append, String.toList_append, outlineFrom_append hfirst,
            outlineFrom_append (outlineFrom_of_isOrdinary hcomma), ih hnames hclosed]
          simp

end Sql

namespace Chain

/-!
## Statements with common table expressions
-/

theorem compile_cte_of_declared {chain : Chain} (hdepth : 1 ≤ chain.depth) {columns : Schema}
    (hcolumns : chain.declaredColumns = some columns) (resolver : Resolver) :
    chain.compile .cte resolver =
      (.ok ⟨chain.withStatement columns chain.fragments, columns, .cte, chain.fragments⟩,
        resolver) := by
  rcases exists_settled hdepth .cte with ⟨result, hsettled⟩
  rw [hsettled.compile_eq resolver, hsettled.declared columns hcolumns]
  cases chain with
  | root dataset => cases hdepth
  | step parent name s => rfl

theorem asDataset_cte_of_declared {chain : Chain} (hdepth : 1 ≤ chain.depth) {columns : Schema}
    (hcolumns : chain.declaredColumns = some columns) (resolver : Resolver) :
    chain.asDataset .cte resolver =
      (.ok (.query chain.name (chain.withStatement columns chain.fragments) (some columns)),
        resolver) := by
  unfold asDataset
  rw [Asking.bind_apply, compile_cte_of_declared hdepth hcolumns resolver]
  rfl

theorem isIdentifier_of_mem_fragments {chain : Chain} (h : Reachable chain)
    {fragment : StepFragment} (hmem : fragment ∈ chain.fragments) :
    Text.isIdentifier fragment.name = true := by
  apply h.wellNamed.identifiers
  rw [← map_name_fragments]
  exact List.mem_map_of_mem hmem

theorem isIdentifier_name {chain : Chain} (h : Reachable chain) (hdepth : 1 ≤ chain.depth) :
    Text.isIdentifier chain.name = true := by
  cases chain with
  | root dataset => cases hdepth
  | step parent name s => exact h.wellNamed.identifiers name (by simp [stepNames])

theorem outlineFrom_list {chain : Chain} (h : Reachable chain)
    (hclosed : ∀ fragment ∈ chain.fragments, Sql.Closed fragment.sql) (outside : List Char) :
    Sql.outlineFrom ⟨.start, outside, [], []⟩
        (Text.join ",\n" (chain.fragments.map Sql.tableExpression)).toList =
      some ⟨.start,
        outside ++ (Text.join ",\n" (chain.stepNames.map fun name => name ++ " AS ()")).toList,
        chain.fragments.map fun fragment => Sql.lines fragment.sql, []⟩ := by
  have hidentifiers : ∀ fragment ∈ chain.fragments, Text.isIdentifier fragment.name = true :=
    fun fragment hmem => isIdentifier_of_mem_fragments h hmem
  have hlist := Sql.outlineFrom_tableExpressions hidentifiers hclosed outside []
  have hnames : (chain.fragments.map fun fragment => fragment.name ++ " AS ()") =
      chain.stepNames.map fun name => name ++ " AS ()" := by
    rw [← map_name_fragments, List.map_map]
    rfl
  rw [hnames, List.nil_append] at hlist
  exact hlist

theorem outline_withStatement {chain : Chain} (h : Reachable chain) {columns : Schema}
    (hclosed : ∀ fragment ∈ chain.fragments, Sql.Closed fragment.sql) {select : Sql.Outline}
    (hselect : Sql.outline (Sql.finalSelect columns chain.name) = some select) :
    Sql.outline (chain.withStatement columns chain.fragments) =
      some ⟨select.place,
        ("WITH " ++ Text.join ",\n" (chain.stepNames.map fun name => name ++ " AS ()") ++
          "\n").toList ++ select.outside,
        (chain.fragments.map fun fragment => Sql.lines fragment.sql) ++ select.groups,
        select.inside⟩ := by
  have hwith : ∀ c ∈ "WITH ".toList, Sql.isOrdinary c = true := List.all_eq_true.mp (by decide)
  have hline : ∀ c ∈ "\n".toList, Sql.isOrdinary c = true := List.all_eq_true.mp (by decide)
  have hfound : Sql.outlineFrom ⟨.start, [], [], []⟩
      (Sql.finalSelect columns chain.name).toList = some select := hselect
  have hbehind := Sql.outlineFrom_behind hfound
    ("WITH ".toList ++ (Text.join ",\n"
      (chain.stepNames.map fun name => name ++ " AS ()")).toList ++ "\n".toList)
    (chain.fragments.map fun fragment => Sql.lines fragment.sql)
  rw [List.append_nil, List.append_nil] at hbehind
  unfold Sql.outline withStatement
  simp only [String.toList_append, List.append_assoc] at hbehind ⊢
  rw [Sql.outlineFrom_append (Sql.outlineFrom_of_isOrdinary hwith), List.nil_append,
    Sql.outlineFrom_append (outlineFrom_list h hclosed _),
    Sql.outlineFrom_append (Sql.outlineFrom_of_isOrdinary hline), List.append_assoc]
  exact hbehind

/-- Where the stored fragments are closed, and the declared columns are closed, without comments
and on one line, the statement with common table expressions is closed.  Outside of its outermost
parentheses it lists the names of the steps and makes the final selection, and the parentheses hold
the fragments, each of them on lines of its own, before those of the selection.  As a dataset of
another chain the statement is closed, and nothing but one pair of parentheses. -/
theorem Reachable.steps_contained {chain : Chain} (h : Reachable chain) (hdepth : 1 ≤ chain.depth)
    {columns : Schema} (hcolumns : chain.declaredColumns = some columns)
    (hfragments : ∀ fragment ∈ chain.fragments, Sql.Closed fragment.sql)
    (hnames : ∀ name ∈ columns.names, Sql.IsColumnText name) (resolver : Resolver) :
    ∃ query list select,
      chain.compile .cte resolver = (.ok query, resolver) ∧
      query.sql = "WITH " ++ list ++ "\n" ++ Sql.finalSelect columns chain.name ∧
      Sql.Closed query.sql ∧
      Sql.outline list =
        some ⟨.start, (Text.join ",\n" (chain.stepNames.map fun name => name ++ " AS ()")).toList,
          chain.fragments.map fun fragment => ("\n" ++ fragment.sql ++ "\n").toList, []⟩ ∧
      Sql.outline (Sql.finalSelect columns chain.name) = some select ∧
      select.place = .start ∧ select.inside = [] ∧
      Sql.outline query.sql =
        some ⟨.start,
          ("WITH " ++ Text.join ",\n" (chain.stepNames.map fun name => name ++ " AS ()") ++
            "\n").toList ++ select.outside,
          (chain.fragments.map fun fragment => ("\n" ++ fragment.sql ++ "\n").toList) ++
            select.groups, []⟩ ∧
      ∃ dataset, chain.asDataset .cte resolver = (.ok dataset, resolver) ∧
        dataset.relation = "(\n" ++ query.sql ++ "\n)" ∧
        Sql.Closed dataset.relation ∧
        Sql.outline dataset.relation =
          some ⟨.start, "()".toList, [("\n" ++ query.sql ++ "\n").toList], []⟩ := by
  have hlines : ∀ sql : String, ("\n" ++ sql ++ "\n").toList = Sql.lines sql := by
    intro sql
    simp [Sql.lines]
  have hfinal := Sql.scan_finalSelect hnames
    (Sql.isOrdinary_of_isIdentifier (isIdentifier_name h hdepth))
  have hempty : Sql.Outline.Settled ⟨.start, [], [], []⟩ := fun _ => rfl
  rcases Sql.exists_outlineFrom hfinal hempty with ⟨select, hselect, hplace, hsettled⟩
  have hinside : select.inside = [] := hsettled (by rw [hplace]; rfl)
  have houtline := outline_withStatement h hfragments hselect
  rw [hplace, hinside] at houtline
  have hclosed := Sql.closed_of_outline houtline rfl
  have hsubquery := Sql.outline_subquery hclosed
  have hlist := outlineFrom_list h hfragments []
  simp only [hlines]
  refine ⟨_, Text.join ",\n" (chain.fragments.map Sql.tableExpression), select,
    compile_cte_of_declared hdepth hcolumns resolver, ?_, hclosed, hlist, hselect, hplace, hinside,
    houtline, _, asDataset_cte_of_declared hdepth hcolumns resolver, ?_, ?_, hsubquery⟩
  · simp only [withStatement]
  · simp only [Dataset.relation]
  · exact Sql.closed_of_outline hsubquery rfl

/-!
## An annotated chain

Numbers that are filtered, with a remark behind the condition that opens a parenthesis and a quote,
and then ordered.
-/

def filtering : Transform :=
  Library.transformOf Library.filterListing Library.filterBody Library.filterNodes

def annotation : String := "N > 0 -- positive (that's all"

def annotatedArguments : Bound :=
  ⟨[("filters", .list [.str annotation]), ("conjunction", .str "AND")]⟩

def annotatedStep : Step :=
  ⟨filtering, annotatedArguments, some [⟨"N", none⟩], [],
    "SELECT\n  N\nFROM (\nSELECT 1 AS N\n)\nWHERE\n  " ++ annotation, some [⟨"N", none⟩]⟩

def annotatedOnce : Chain :=
  .step numbers "STEP_1_FILTER" annotatedStep

def annotated : Chain :=
  .step annotatedOnce "STEP_2_ORDER"
    ⟨ordering, ⟨[("order_by", .mapping [("N", .str "desc")])]⟩, some [⟨"N", none⟩], [],
      "SELECT\n  N\nFROM STEP_1_FILTER\nORDER BY N DESC", some [⟨"N", none⟩]⟩

def annotatingWorkshop : Workshop :=
  ⟨⟨[filtering, ordering]⟩, none, "STEP"⟩

theorem reachable_annotatedOnce : Reachable annotatedOnce := by
  have hrender : (unwritten filtering annotatedArguments (some [⟨"N", none⟩]) []).renderFrom
      numbers.relation numbers.name = .ok ⟨annotatedStep.fragment, some [⟨"N", none⟩]⟩ :=
    eq_ok_of_toOption (by decide +kernel)
  have hextend : numbers.extend annotatingWorkshop "filter"
      [("filters", .list [.str annotation])] ⟨none, none⟩ default =
        (.ok annotatedOnce, default) :=
    extend_eq_ok_iff.mpr ⟨⟨filtering, some [⟨"N", none⟩], default, annotatedArguments, [],
      "STEP_1_FILTER", _, rfl, rfl, rfl, rfl, rfl, hrender, rfl⟩⟩
  exact .extend (.root _) hextend

theorem reachable_annotated : Reachable annotated := by
  have hrender : (unwritten ordering ⟨[("order_by", .mapping [("N", .str "desc")])]⟩
      (some [⟨"N", none⟩]) []).renderFrom annotatedOnce.relation annotatedOnce.name =
        .ok ⟨"SELECT\n  N\nFROM STEP_1_FILTER\nORDER BY N DESC", some [⟨"N", none⟩]⟩ :=
    eq_ok_of_toOption (by decide +kernel)
  have hextend : annotatedOnce.extend annotatingWorkshop "order"
      [("order_by", .mapping [("N", .str "desc")])] ⟨none, none⟩ default =
        (.ok annotated, default) :=
    extend_eq_ok_iff.mpr ⟨⟨ordering, some [⟨"N", none⟩], default, _, [], "STEP_2_ORDER", _, rfl, rfl,
      rfl, rfl, rfl, hrender, rfl⟩⟩
  exact .extend reachable_annotatedOnce hextend

/-- The remark hides the quote and the parenthesis, and nothing behind it. -/
theorem annotated_steps_contained :
    (1 ≤ annotated.depth ∧ Reachable annotated ∧
      (∀ fragment ∈ annotated.fragments, Sql.Closed fragment.sql) ∧ Sql.IsColumnText "N") ∧
    ∃ query, annotated.compile .cte default = (.ok query, default) ∧ Sql.Closed query.sql ∧
      Sql.outline query.sql =
        some ⟨.start,
          "WITH STEP_1_FILTER AS (),\nSTEP_2_ORDER AS ()\nSELECT N\nFROM STEP_2_ORDER".toList,
          annotated.fragments.map fun fragment => ("\n" ++ fragment.sql ++ "\n").toList, []⟩ := by
  have hfragments : ∀ fragment ∈ annotated.fragments, Sql.Closed fragment.sql := by
    decide +kernel
  have hname : Sql.IsColumnText "N" :=
    ⟨by decide +kernel, by decide +kernel, by decide +kernel, by decide +kernel⟩
  have hnames : ∀ name ∈ Schema.names [⟨"N", none⟩], Sql.IsColumnText name :=
    List.forall_mem_singleton.mpr hname
  have hcolumns : annotated.declaredColumns = some [⟨"N", none⟩] := rfl
  rcases reachable_annotated.steps_contained (by decide) hcolumns hfragments hnames default with
    ⟨query, list, select, hcompile, -, hclosed, -, hselect, hplace, hinside, houtline, -⟩
  have hfound : Sql.outline (Sql.finalSelect [⟨"N", none⟩] annotated.name) =
      some ⟨.start, "SELECT N\nFROM STEP_2_ORDER".toList, [], []⟩ := by decide +kernel
  rw [hfound] at hselect
  cases hselect
  refine ⟨⟨by decide, reachable_annotated, hfragments, hname⟩, query, hcompile, hclosed, ?_⟩
  rw [houtline]
  decide +kernel

end Chain
end TransformChain
