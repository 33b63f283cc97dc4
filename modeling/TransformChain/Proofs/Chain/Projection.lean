import TransformChain.Proofs.Chain.Reachable
import TransformChain.Proofs.Template.Declaring
import TransformChain.Proofs.Text.Splicing

/-!
# Projections of compiled queries

A compiled query ends in the selection of its columns.  What a rendering declares makes a usable
selection.  What is stated from outside, by the caller of an extension, by whoever makes the base
dataset, or by the warehouse, is selected as it is, so the selection is usable exactly if that is.
-/

namespace TransformChain
namespace Chain

/-!
## Where the columns come from
-/

/-- The columns that the chain is said to have, when the resolver is asked: those that the caller
of the last extension gives, those that are known of the base dataset, or those that are kept for
the base table or reported of it. -/
inductive Stated (resolver : Resolver) : Chain → Schema → Prop where
  | given {workshop : Workshop} {chain next : Chain} {transformName : String}
      {args : Keyed Argument} {options : StepOptions} {before after : Resolver}
      {columns : Schema} :
      chain.extend workshop transformName args options before = (.ok next, after) →
      options.outputColumns = some columns → Stated resolver next columns
  | known {dataset : Dataset} {columns : Schema} :
      dataset.columns = some columns → Stated resolver (.root dataset) columns
  | kept {table : TableName} {columns : Schema} :
      Warehouse.listed? table resolver.cache = some columns →
      Stated resolver (.root (.table table none)) columns
  | reported {table : TableName} {columns : Schema} :
      Warehouse.listed? table resolver.cache = none →
      (resolver.warehouse.columns table).1 = .ok columns → columns ≠ [] →
      Stated resolver (.root (.table table none)) columns

theorem stated_of_columnsOf {dataset : Dataset} {columns : Schema} {before after : Resolver}
    (h : Resolver.columnsOf dataset before = (.ok columns, after)) :
    Stated before (.root dataset) columns := by
  cases hknown : dataset.columns with
  | some known =>
      simp only [Resolver.columnsOf, hknown] at h
      cases h
      exact .known hknown
  | none =>
      cases dataset with
      | query name sql columns =>
          cases hknown
          cases h
      | table name columns =>
          cases hknown
          change Resolver.tableColumns name before = _ at h
          unfold Resolver.tableColumns at h
          cases hkept : Warehouse.listed? name before.cache with
          | some kept =>
              rw [hkept] at h
              cases h
              exact .kept hkept
          | none =>
              simp only [hkept, Resolver.ask] at h
              rcases hasked : before.warehouse.columns name with ⟨answer, warehouse⟩
              rw [hasked] at h
              cases answer with
              | error e => cases h
              | ok reported =>
                  cases reported with
                  | nil => cases h
                  | cons column rest =>
                      cases h
                      exact .reported hkept (by rw [hasked]) (List.cons_ne_nil _ _)

theorem Stated.outputColumns {chain : Chain} {columns : Schema} {before : Resolver}
    (h : Stated before chain columns) :
    ∃ after, chain.outputColumns before = (.ok columns, after) := by
  cases h with
  | given hextend hgiven =>
      rcases extend_eq_ok_iff.mp hextend with ⟨e⟩
      refine ⟨before, ?_⟩
      rw [e.next_eq]
      simp only [Chain.outputColumns, written, hgiven, Option.orElse_some]
      rfl
  | @known dataset columns hknown =>
      refine ⟨before, ?_⟩
      simp only [Chain.outputColumns, Resolver.columnsOf, hknown]
      rfl
  | @kept table columns hkept =>
      refine ⟨before, ?_⟩
      change Resolver.tableColumns table before = _
      simp only [Resolver.tableColumns, hkept]
  | @reported table columns hkept hreported hne =>
      change ∃ after, Resolver.tableColumns table before = (.ok columns, after)
      simp only [Resolver.tableColumns, hkept, Resolver.ask]
      rcases hasked : before.warehouse.columns table with ⟨answer, warehouse⟩
      rw [hasked] at hreported
      cases hreported
      cases columns with
      | nil => exact absurd rfl hne
      | cons column rest => exact ⟨_, rfl⟩

theorem Reachable.usable_or_stated {chain : Chain} (h : Reachable chain) {columns : Schema}
    {before after : Resolver} (hcolumns : chain.outputColumns before = (.ok columns, after)) :
    columns.IsUsable ∨ Stated before chain columns := by
  cases h with
  | root dataset => exact Or.inr (stated_of_columnsOf hcolumns)
  | @extend _ _ workshop transformName args options _ _ _ hextend =>
      rcases extend_eq_ok_iff.mp hextend with ⟨e⟩
      rw [e.next_eq] at hcolumns
      cases hgiven : options.outputColumns with
      | some given =>
          simp only [Chain.outputColumns, written, hgiven, Option.orElse_some] at hcolumns
          cases hcolumns
          exact Or.inr (.given hextend hgiven)
      | none =>
          simp only [Chain.outputColumns, written, hgiven, Option.orElse_none] at hcolumns
          cases hdeclared : e.rendered.output with
          | none =>
              rw [hdeclared] at hcolumns
              cases hcolumns
          | some declared =>
              rw [hdeclared] at hcolumns
              cases hcolumns
              exact Or.inl (Template.render_output_isUsable e.render_eq hdeclared)

/-!
## The final selection
-/

def selectedFrom (style : CompileStyle) (steps : List StepFragment) : Chain → String
  | root dataset => dataset.relation
  | step _ name _ =>
      match style with
      | .cte => name
      | .nested => Sql.subquery (tipSql steps)

theorem compile_eq_ok {chain : Chain} {style : CompileStyle} {before after : Resolver}
    {query : CompiledQuery} (h : chain.compile style before = (.ok query, after)) :
    chain.outputColumns before = (.ok query.columns, after) ∧
      ∃ lead, query.sql =
        lead ++ Sql.finalSelect query.columns (chain.selectedFrom style query.steps) := by
  unfold compile at h
  rw [Asking.bind_eq_ok_iff] at h
  rcases h with ⟨columns, between, hcolumns, h⟩
  rw [Asking.lift_eq_ok_iff] at h
  rcases h with ⟨h, rfl⟩
  cases chain with
  | root dataset =>
      cases h
      exact ⟨hcolumns, "", String.empty_append.symm⟩
  | step parent name s =>
      cases style with
      | cte =>
          cases h
          exact ⟨hcolumns, _, rfl⟩
      | nested =>
          simp only [compileTo, isRoot, Bool.false_eq_true, if_false] at h
          cases hsteps : (step parent name s).renderSteps nestedReference with
          | error e =>
              rw [hsteps] at h
              cases h
          | ok steps =>
              rw [hsteps] at h
              cases h
              exact ⟨hcolumns, "", String.empty_append.symm⟩

/-- A compiled query ends in the selection of its columns.  These are not empty and differ in their
names exactly if that is so for the columns that are stated from outside, if any are. -/
theorem Reachable.projection_usable_iff {chain : Chain} (h : Reachable chain)
    {style : CompileStyle} {before after : Resolver} {query : CompiledQuery}
    (hcompile : chain.compile style before = (.ok query, after)) :
    (query.columns.IsUsable ↔ ∀ columns, Stated before chain columns → columns.IsUsable) ∧
    (∃ lead, query.sql =
      lead ++ "SELECT " ++ Text.join ", " query.columns.names ++
        "\nFROM " ++ chain.selectedFrom style query.steps) ∧
    (Text.join ", " query.columns.names = "" ↔
      query.columns = [] ∨ query.columns.names = [""]) := by
  rcases compile_eq_ok hcompile with ⟨hcolumns, lead, hsql⟩
  refine ⟨⟨?_, ?_⟩, ⟨lead, ?_⟩, ?_⟩
  · intro husable columns hstated
    rcases hstated.outputColumns with ⟨_, heq⟩
    rw [hcolumns] at heq
    cases heq
    exact husable
  · intro hall
    rcases h.usable_or_stated hcolumns with husable | hstated
    · exact husable
    · exact hall query.columns hstated
  · rw [hsql]
    simp only [Sql.finalSelect, String.append_assoc]
  · rw [Text.join_eq_empty_iff (by decide)]
    simp [Schema.names]

/-!
## Columns from the caller
-/

def copiedAs (columns : Schema) : Chain :=
  .step numbers "STEP_1_COPY"
    ⟨copying, ⟨[]⟩, some [⟨"N", none⟩], [], "SELECT * FROM (\nSELECT 1 AS N\n)", some columns⟩

theorem extend_copiedAs (columns : Schema) :
    numbers.extend copyWorkshop "copy" [] ⟨none, some columns⟩ default =
      (.ok (copiedAs columns), default) := by rfl

theorem reachable_copiedAs (columns : Schema) : Reachable (copiedAs columns) :=
  .extend (.root _) (extend_copiedAs columns)

theorem projection_of_copiedAs :
    ∃ query, (copiedAs [⟨"N", none⟩, ⟨"n", none⟩]).compile .nested default = (.ok query, default) ∧
      query.columns.IsUsable := by
  have hcompile : (copiedAs [⟨"N", none⟩, ⟨"n", none⟩]).compile .nested default =
      (.ok ⟨"SELECT N, n\nFROM (\nSELECT * FROM (\nSELECT 1 AS N\n)\n)",
        [⟨"N", none⟩, ⟨"n", none⟩], .nested,
        [⟨"STEP_1_COPY", "copy", "SELECT * FROM (\nSELECT 1 AS N\n)", numbers.asInput,
          some [⟨"N", none⟩, ⟨"n", none⟩]⟩]⟩, default) := by rfl
  refine ⟨_, hcompile,
    ((reachable_copiedAs _).projection_usable_iff hcompile).left.mpr fun columns hstated => ?_⟩
  rcases hstated.outputColumns with ⟨after, heq⟩
  cases heq
  exact ⟨List.cons_ne_nil _ _, by decide⟩

/-- No columns at all, and one column twice. -/
theorem given_columns_selected_unchecked :
    (Reachable (copiedAs []) ∧
      ∃ query, (copiedAs []).compile .cte default = (.ok query, default) ∧
        query.columns = [] ∧
        query.sql = "WITH STEP_1_COPY AS (\nSELECT * FROM (\nSELECT 1 AS N\n)\n)\n" ++
          "SELECT \nFROM STEP_1_COPY") ∧
    Reachable (copiedAs [⟨"N", none⟩, ⟨"N", none⟩]) ∧
      ∃ query, (copiedAs [⟨"N", none⟩, ⟨"N", none⟩]).compile .nested default =
          (.ok query, default) ∧
        ¬query.columns.names.Nodup ∧
        query.sql = "SELECT N, N\nFROM (\nSELECT * FROM (\nSELECT 1 AS N\n)\n)" := by
  refine ⟨⟨reachable_copiedAs _, _, rfl, rfl, rfl⟩, reachable_copiedAs _, _, rfl, ?_, rfl⟩
  decide

end Chain
end TransformChain
