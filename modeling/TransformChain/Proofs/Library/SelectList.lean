import TransformChain.Proofs.Library.Clauses

/-!
# The select list and the declared columns

A template of the library that renders has written the items that its arguments describe, one line
for each column that it declares, in the same order and under the same names.  Behind the source it
has written the clause that the arguments describe, and nothing else.
-/

namespace TransformChain
namespace Library

open Template
open Template.Action

theorem run_of_render {template : Template} {context : Context} {rendered : Rendered}
    (h : render template context = .ok rendered) :
    ∃ text after, Scene.run ⟨template, context⟩ callBudget = (.done text, after) ∧
      rendered.sql = Text.trim text ∧ rendered.output.getD [] = after.declared := by
  rcases render_eq_ok_iff.mp h with ⟨text, after, hrun, -, rfl⟩
  refine ⟨text, after, hrun, rfl, ?_⟩
  unfold declaredOutput
  cases after.declared <;> rfl

/-- Whatever a transform of the library is given, if it renders, then the text it has written before
the white space at its ends is cut off is `SELECT`, the lines of the items that its arguments
describe, with commas between them and nowhere else, and `FROM` with the source.  The columns of
these items, in order and under their names, are the declared ones. -/
theorem select_list_matches_output {listing : Listing} {body : String}
    (hentry : (listing, body) ∈ entries) (hname : listing.name ≠ "apply")
    {transform : Transform} (hcreate : Transform.create listing body = .ok transform)
    {args : Keyed Argument} {ns : Option Namespace} {bound : Bound}
    (hbind : transform.bind args ns = .ok bound) {context : Context}
    (harguments : context.arguments = bound.values) {rendered : Rendered}
    (hrender : render transform.template context = .ok rendered) :
    (∃ schema, context.input = some schema) ∧
    ∃ text rest,
      (Scene.run ⟨transform.template, context⟩ callBudget).1 = .done text ∧
      rendered.sql = Text.trim text ∧
      text = "SELECT\n" ++ listText (selectionOf listing.name context) ++ "FROM " ++
        context.source ++ rest ∧
      (selectionOf listing.name context).map Item.column = rendered.output.getD [] := by
  rcases exists_tree_of_create hentry hname hcreate with ⟨nodes, hmem, rfl⟩
  rcases run_of_render hrender with ⟨text, after, hrun, hsql, houtput⟩
  have h := selectsClause_of_mem_trees hmem hbind rfl harguments hrun
  exact ⟨h.known, text, _, by rw [hrun], hsql, h.selects.text_eq,
    by rw [houtput, h.selects.declared_eq]⟩

/-- Sales that are grouped by their region: one aggregate of the amounts by its name, two of the
identifiers in a list. -/
def totalsArguments : Keyed Argument := [
  ("group_by", .list [.str "region"]),
  ("aggregations", .mapping [
    ("amount", .str "sum"),
    ("id", .list [.str "min", .str "max"])])]

def totalsContext (bound : Bound) : Context where
  source := "sales"
  sourceLabel := "sales"
  input := some [⟨"id", some "INT"⟩, ⟨"region", none⟩, ⟨"amount", some "FLOAT"⟩]
  datasets := []
  arguments := bound.values

def totals : Transform :=
  transformOf aggregateListing aggregateBody aggregateNodes

def totalsItems : List Item := [
  ⟨.bare, ⟨"region", none⟩⟩,
  ⟨.computed "SUM(amount)", ⟨"AMOUNT_SUM", none⟩⟩,
  ⟨.computed "MIN(id)", ⟨"ID_MIN", none⟩⟩,
  ⟨.computed "MAX(id)", ⟨"ID_MAX", none⟩⟩]

def totalsRendered : Rendered :=
  ⟨"SELECT\n  region,\n  SUM(amount) AS AMOUNT_SUM,\n  MIN(id) AS ID_MIN,\n  " ++
    "MAX(id) AS ID_MAX\nFROM sales\nGROUP BY region",
    some [⟨"region", none⟩, ⟨"AMOUNT_SUM", none⟩, ⟨"ID_MIN", none⟩, ⟨"ID_MAX", none⟩]⟩

theorem totals_bound : totals.bind totalsArguments none = .ok ⟨totalsArguments⟩ := by rfl

theorem totals_rendered :
    render totals.template (totalsContext ⟨totalsArguments⟩) = .ok totalsRendered :=
  eq_ok_of_toOption (by decide +kernel)

theorem totals_selection :
    selectionOf aggregateListing.name (totalsContext ⟨totalsArguments⟩) = totalsItems := by
  decide +kernel

theorem totals_listText :
    listText totalsItems =
      "  region,\n  SUM(amount) AS AMOUNT_SUM,\n  MIN(id) AS ID_MIN,\n  MAX(id) AS ID_MAX\n" := by
  decide +kernel

theorem select_list_of_totals :
    ∃ bound, totals.bind totalsArguments none = .ok bound ∧
      render totals.template (totalsContext bound) = .ok totalsRendered ∧
      ∃ text rest,
        (Scene.run ⟨totals.template, totalsContext bound⟩ callBudget).1 = .done text ∧
        totalsRendered.sql = Text.trim text ∧
        text = "SELECT\n  region,\n  SUM(amount) AS AMOUNT_SUM,\n  MIN(id) AS ID_MIN,\n  " ++
          "MAX(id) AS ID_MAX\nFROM sales" ++ rest ∧
        totalsItems.map Item.column = totalsRendered.output.getD [] := by
  have hcreate : Transform.create aggregateListing aggregateBody = .ok totals :=
    create_of_mem_trees (by simp [trees])
  rcases select_list_matches_output (by simp [entries]) (by decide) hcreate totals_bound rfl
    totals_rendered with ⟨-, text, rest, hrun, hsql, htext, houtput⟩
  rw [totals_selection] at htext houtput
  rw [totals_listText] at htext
  exact ⟨_, totals_bound, totals_rendered, text, rest, hrun, hsql, htext, houtput⟩

/-!
## Clauses
-/

/-- Whatever a transform of the library is given, if it renders, then what it has written behind the
source, before the white space at its end is cut off, is the clause that its arguments describe:
conditions on lines of their own, directions, pairs of columns, or the grouped columns.  These are
the selected items that are not computed, in their order. -/
theorem clause_matches_arguments {listing : Listing} {body : String}
    (hentry : (listing, body) ∈ entries) (hname : listing.name ≠ "apply")
    {transform : Transform} (hcreate : Transform.create listing body = .ok transform)
    {args : Keyed Argument} {ns : Option Namespace} {bound : Bound}
    (hbind : transform.bind args ns = .ok bound) {context : Context}
    (harguments : context.arguments = bound.values) {rendered : Rendered}
    (hrender : render transform.template context = .ok rendered) :
    ∃ text,
      (Scene.run ⟨transform.template, context⟩ callBudget).1 = .done text ∧
      rendered.sql = Text.trim text ∧
      text = "SELECT\n" ++ listText (selectionOf listing.name context) ++ "FROM " ++
        context.source ++ clauseOf listing.name context (selectionOf listing.name context) ∧
      (selectionOf listing.name context).map Item.column = rendered.output.getD [] ∧
      (listing.name ∈ ["aggregate", "pivot"] →
        bareNames (selectionOf listing.name context) =
          (groupsOf listing.name context).map Value.display) := by
  rcases exists_tree_of_create hentry hname hcreate with ⟨nodes, hmem, rfl⟩
  rcases run_of_render hrender with ⟨text, after, hrun, hsql, houtput⟩
  have h := selectsClause_of_mem_trees hmem hbind rfl harguments hrun
  exact ⟨text, by rw [hrun], hsql, h.selects.text_eq, by rw [houtput, h.selects.declared_eq],
    h.groups⟩

def oddArguments : Keyed Argument := [
  ("filters", .list [
    .str "region = '\x7b\x7b x \x7d\x7d'",
    .mapping [("column", .str "id"), ("value", .int 7)]]),
  ("conjunction", .str "OR")]

def odd : Transform :=
  transformOf filterListing filterBody filterNodes

def oddContext (bound : Bound) : Context :=
  { totalsContext bound with input := some [⟨"id", some "INT"⟩, ⟨"region", none⟩] }

def oddRendered : Rendered :=
  ⟨"SELECT\n  id,\n  region\nFROM sales\nWHERE\n  region = '\x7b\x7b x \x7d\x7d'\n  OR id = 7",
    some [⟨"id", some "INT"⟩, ⟨"region", none⟩]⟩

theorem odd_rendered : render odd.template (oddContext ⟨oddArguments⟩) = .ok oddRendered :=
  eq_ok_of_toOption (by decide +kernel)

theorem odd_selection :
    selectionOf filterListing.name (oddContext ⟨oddArguments⟩) =
      [⟨.bare, ⟨"id", some "INT"⟩⟩, ⟨.bare, ⟨"region", none⟩⟩] := by
  decide +kernel

/-- The two conditions of a filter, of which the first looks like a template, and the one column
that sums are grouped by. -/
theorem clauses_of_odd_and_totals :
    (∃ bound, odd.bind oddArguments none = .ok bound ∧
      render odd.template (oddContext bound) = .ok oddRendered ∧
      ∃ text, oddRendered.sql = Text.trim text ∧
        text = "SELECT\n  id,\n  region\nFROM sales" ++
          "\nWHERE\n  region = '\x7b\x7b x \x7d\x7d'\n  OR id = 7\n") ∧
    (∃ bound, totals.bind totalsArguments none = .ok bound ∧
      render totals.template (totalsContext bound) = .ok totalsRendered ∧
      ∃ text, totalsRendered.sql = Text.trim text ∧
        text = "SELECT\n  region,\n  SUM(amount) AS AMOUNT_SUM,\n  MIN(id) AS ID_MIN,\n  " ++
          "MAX(id) AS ID_MAX\nFROM sales" ++ "\nGROUP BY region\n" ∧
        bareNames totalsItems = ["region"]) := by
  constructor
  · have hcreate : Transform.create filterListing filterBody = .ok odd :=
      create_of_mem_trees (by simp [trees])
    have hbind : odd.bind oddArguments none = .ok ⟨oddArguments⟩ := by rfl
    rcases clause_matches_arguments (by simp [entries]) (by decide) hcreate hbind rfl odd_rendered
      with ⟨text, -, hsql, htext, -, -⟩
    rw [odd_selection] at htext
    exact ⟨_, hbind, odd_rendered, text, hsql, htext⟩
  · have hcreate : Transform.create aggregateListing aggregateBody = .ok totals :=
      create_of_mem_trees (by simp [trees])
    rcases clause_matches_arguments (by simp [entries]) (by decide) hcreate totals_bound rfl
      totals_rendered with ⟨text, -, hsql, htext, -, hgroups⟩
    have hbare := hgroups (by decide)
    rw [totals_selection] at htext hbare
    rw [totals_listText] at htext
    exact ⟨_, totals_bound, totals_rendered, text, hsql, htext, hbare⟩

end Library
end TransformChain
