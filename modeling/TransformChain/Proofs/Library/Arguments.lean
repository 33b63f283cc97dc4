import TransformChain.Proofs.Transform.Binding
import TransformChain.Transform.Library

/-!
# Arguments of the library's transforms

What the templates of the library find under the names of their parameters once binding has
succeeded: mappings and lists where these are asked for, and any value where a scalar is.
-/

namespace TransformChain
namespace Library

open Transform

section Values

variable {transform : Transform} {args : Keyed Argument} {ns : Option Namespace} {bound : Bound}

theorem cast_values (hparameters : transform.parameters = castListing.parameters)
    (h : transform.bind args ns = .ok bound) :
    ∃ casts overwrite,
      bound.values = [("casts", .map casts), ("overwrite_columns", overwrite)] := by
  have hbind := bindParameters_of_bind h
  rw [hparameters] at hbind
  simp only [castListing, bindParameters_cons, bindParameters_nil] at hbind
  rcases hbind with ⟨casts, _, hcasts, ⟨overwrite, _, -, rfl, rfl⟩, hentries⟩
  rcases eq_mapping_of_bindParameter rfl rfl hcasts with ⟨casts, rfl⟩
  exact ⟨_, _, by rw [Bound.values, ← hentries]; rfl⟩

theorem filter_values (hparameters : transform.parameters = filterListing.parameters)
    (h : transform.bind args ns = .ok bound) :
    ∃ conditions word,
      bound.values = [("filters", .list conditions), ("conjunction", word)] := by
  have hbind := bindParameters_of_bind h
  rw [hparameters] at hbind
  simp only [filterListing, bindParameters_cons, bindParameters_nil] at hbind
  rcases hbind with ⟨conditions, _, hconditions, ⟨word, _, -, rfl, rfl⟩, hentries⟩
  rcases eq_list_of_bindParameter rfl rfl hconditions with ⟨conditions, rfl⟩
  exact ⟨_, _, by rw [Bound.values, ← hentries]; rfl⟩

theorem dropColumns_lists (hparameters : transform.parameters = dropColumnsListing.parameters)
    (h : transform.bind args ns = .ok bound) :
    ∃ included excluded,
      (included = .null ∨ ∃ names, included = .list names) ∧
      (excluded = .null ∨ ∃ names, excluded = .list names) ∧
      bound.values = [("include_cols", included), ("exclude_cols", excluded)] := by
  have hbind := bindParameters_of_bind h
  rw [hparameters] at hbind
  simp only [dropColumnsListing, bindParameters_cons, bindParameters_nil] at hbind
  rcases hbind with ⟨included, _, hincluded, ⟨excluded, _, hexcluded, rfl, rfl⟩, hentries⟩
  have hlist : ∀ {value : Argument}, (value = .null ∨ ∃ names, value = .list names) →
      value.toValue = .null ∨ ∃ names, value.toValue = .list names := by
    rintro value (rfl | ⟨names, rfl⟩)
    · exact Or.inl rfl
    · exact Or.inr ⟨_, rfl⟩
  exact ⟨_, _, hlist (eq_null_or_list_of_bindParameter rfl rfl hincluded),
    hlist (eq_null_or_list_of_bindParameter rfl rfl hexcluded),
    by rw [Bound.values, ← hentries]; rfl⟩

theorem dropColumns_values (hparameters : transform.parameters = dropColumnsListing.parameters)
    (h : transform.bind args ns = .ok bound) :
    ∃ included excluded,
      (included = .null ∨ ∃ names, included = .list names) ∧
      bound.values = [("include_cols", included), ("exclude_cols", excluded)] := by
  rcases dropColumns_lists hparameters h with ⟨included, excluded, hincluded, -, hvalues⟩
  exact ⟨included, excluded, hincluded, hvalues⟩

theorem rename_values (hparameters : transform.parameters = renameListing.parameters)
    (h : transform.bind args ns = .ok bound) :
    ∃ renames,
      bound.values = [("renames", .map renames)] := by
  have hbind := bindParameters_of_bind h
  rw [hparameters] at hbind
  simp only [renameListing, bindParameters_cons, bindParameters_nil] at hbind
  rcases hbind with ⟨_, _, hrenames, rfl, hentries⟩
  rcases eq_mapping_of_bindParameter rfl rfl hrenames with ⟨renames, rfl⟩
  exact ⟨_, by rw [Bound.values, ← hentries]; rfl⟩

theorem concat_values (hparameters : transform.parameters = concatListing.parameters)
    (h : transform.bind args ns = .ok bound) :
    ∃ parts given,
      bound.values = [("concat_list", .list parts), ("alias", given)] := by
  have hbind := bindParameters_of_bind h
  rw [hparameters] at hbind
  simp only [concatListing, bindParameters_cons, bindParameters_nil] at hbind
  rcases hbind with ⟨parts, _, hparts, ⟨given, _, -, rfl, rfl⟩, hentries⟩
  rcases eq_list_of_bindParameter rfl rfl hparts with ⟨parts, rfl⟩
  exact ⟨_, _, by rw [Bound.values, ← hentries]; rfl⟩

theorem datetrunc_values (hparameters : transform.parameters = datetruncListing.parameters)
    (h : transform.bind args ns = .ok bound) :
    ∃ dates overwrite,
      bound.values = [("dates", .map dates), ("overwrite_columns", overwrite)] := by
  have hbind := bindParameters_of_bind h
  rw [hparameters] at hbind
  simp only [datetruncListing, bindParameters_cons, bindParameters_nil] at hbind
  rcases hbind with ⟨dates, _, hdates, ⟨overwrite, _, -, rfl, rfl⟩, hentries⟩
  rcases eq_mapping_of_bindParameter rfl rfl hdates with ⟨dates, rfl⟩
  exact ⟨_, _, by rw [Bound.values, ← hentries]; rfl⟩

theorem dateadd_named (hparameters : transform.parameters = dateaddListing.parameters)
    (h : transform.bind args ns = .ok bound) :
    ∃ date offset unit given overwrite,
      Template.Function.namesIn date = [date.display] ∧
      bound.values = [("date", date), ("offset", offset), ("interval_type", unit),
        ("alias", given), ("overwrite_columns", overwrite)] := by
  have hbind := bindParameters_of_bind h
  rw [hparameters] at hbind
  simp only [dateaddListing, bindParameters_cons, bindParameters_nil] at hbind
  rcases hbind with ⟨date, _, hdate, ⟨offset, _, -, ⟨unit, _, -, ⟨given, _, -,
    ⟨overwrite, _, -, rfl, rfl⟩, rfl⟩, rfl⟩, rfl⟩, hentries⟩
  exact ⟨_, _, _, _, _, namesIn_of_bindParameter rfl rfl hdate,
    by rw [Bound.values, ← hentries]; rfl⟩

theorem dateadd_values (hparameters : transform.parameters = dateaddListing.parameters)
    (h : transform.bind args ns = .ok bound) :
    ∃ date offset unit given overwrite,
      bound.values = [("date", date), ("offset", offset), ("interval_type", unit),
        ("alias", given), ("overwrite_columns", overwrite)] := by
  rcases dateadd_named hparameters h with ⟨date, offset, unit, given, overwrite, -, hvalues⟩
  exact ⟨date, offset, unit, given, overwrite, hvalues⟩

theorem aggregate_values (hparameters : transform.parameters = aggregateListing.parameters)
    (h : transform.bind args ns = .ok bound) :
    ∃ groups aggregations,
      bound.values = [("group_by", .list groups), ("aggregations", .map aggregations)] := by
  have hbind := bindParameters_of_bind h
  rw [hparameters] at hbind
  simp only [aggregateListing, bindParameters_cons, bindParameters_nil] at hbind
  rcases hbind with ⟨groups, _, hgroups, ⟨aggregations, _, haggregations, rfl, rfl⟩, hentries⟩
  rcases eq_list_of_bindParameter rfl rfl hgroups with ⟨groups, rfl⟩
  rcases eq_mapping_of_bindParameter rfl rfl haggregations with ⟨aggregations, rfl⟩
  exact ⟨_, _, by rw [Bound.values, ← hentries]; rfl⟩

theorem pivot_values (hparameters : transform.parameters = pivotListing.parameters)
    (h : transform.bind args ns = .ok bound) :
    ∃ dimensions key value method wanted,
      bound.values = [("dimensions", .list dimensions), ("pivot_column", key),
        ("value_column", value), ("agg_method", method), ("list_of_vals", .list wanted)] := by
  have hbind := bindParameters_of_bind h
  rw [hparameters] at hbind
  simp only [pivotListing, bindParameters_cons, bindParameters_nil] at hbind
  rcases hbind with ⟨dimensions, _, hdimensions, ⟨key, _, -, ⟨value, _, -, ⟨method, _, -,
    ⟨wanted, _, hwanted, rfl, rfl⟩, rfl⟩, rfl⟩, rfl⟩, hentries⟩
  rcases eq_list_of_bindParameter rfl rfl hdimensions with ⟨dimensions, rfl⟩
  rcases eq_list_of_bindParameter rfl rfl hwanted with ⟨wanted, rfl⟩
  exact ⟨_, _, _, _, _, by rw [Bound.values, ← hentries]; rfl⟩

theorem join_values (hparameters : transform.parameters = joinListing.parameters)
    (h : transform.bind args ns = .ok bound) :
    ∃ table pairs kind given,
      bound.values = [("join_table", table), ("join_columns", .map pairs),
        ("join_type", kind), ("join_prefix", given)] := by
  have hbind := bindParameters_of_bind h
  rw [hparameters] at hbind
  simp only [joinListing, bindParameters_cons, bindParameters_nil] at hbind
  rcases hbind with ⟨table, _, -, ⟨pairs, _, hpairs, ⟨kind, _, -,
    ⟨given, _, -, rfl, rfl⟩, rfl⟩, rfl⟩, hentries⟩
  rcases eq_mapping_of_bindParameter rfl rfl hpairs with ⟨pairs, rfl⟩
  exact ⟨_, _, _, _, by rw [Bound.values, ← hentries]; rfl⟩

theorem order_values (hparameters : transform.parameters = orderListing.parameters)
    (h : transform.bind args ns = .ok bound) :
    ∃ directions,
      bound.values = [("order_by", .map directions)] := by
  have hbind := bindParameters_of_bind h
  rw [hparameters] at hbind
  simp only [orderListing, bindParameters_cons, bindParameters_nil] at hbind
  rcases hbind with ⟨_, _, hdirections, rfl, hentries⟩
  rcases eq_mapping_of_bindParameter rfl rfl hdirections with ⟨directions, rfl⟩
  exact ⟨_, by rw [Bound.values, ← hentries]; rfl⟩

theorem apply_values (hparameters : transform.parameters = applyListing.parameters)
    (h : transform.bind args ns = .ok bound) :
    ∃ sql columns,
      bound.values = [("sql", sql), ("output_columns", columns)] := by
  have hbind := bindParameters_of_bind h
  rw [hparameters] at hbind
  simp only [applyListing, bindParameters_cons, bindParameters_nil] at hbind
  rcases hbind with ⟨sql, _, -, ⟨columns, _, -, rfl, rfl⟩, hentries⟩
  exact ⟨_, _, by rw [Bound.values, ← hentries]; rfl⟩

end Values

/-!
## Arguments by name
-/

def argument (context : Template.Context) (name : String) : Value :=
  (Keyed.get? name context.arguments).getD .null

theorem argument_eq {context : Template.Context} {values : List (String × Value)}
    (h : context.arguments = values) (name : String) :
    argument context name = (Keyed.get? name values).getD .null := by
  unfold argument
  rw [h]

def entriesOf : Value → List (String × Value)
  | .map entries => entries
  | _ => []

def itemsOf : Value → List Value
  | .list items => items
  | _ => []

end Library
end TransformChain
