import TransformChain.Proofs.Chain.Naming

/-!
# Stored fragments

The SQL that is stored while a chain is extended is what its steps give when they are written
again, each from the relation of the chain before it.  So the common table expressions are well
scoped: the first reads from the base dataset, every other one from the expression before it, and
the final selection from the last.
-/

namespace TransformChain

theorem TableName.display_ne_empty (name : TableName) : name.display ≠ "" := by
  intro h
  have hlength := congrArg String.length h
  unfold display at hlength
  simp only [String.length_append] at hlength
  have hdot : ".".length = 1 := by rfl
  rw [hdot] at hlength
  exact absurd hlength (by simp)

theorem Dataset.relation_ne_empty (dataset : Dataset) : dataset.relation ≠ "" := by
  cases dataset with
  | table name columns => exact name.display_ne_empty
  | query name sql columns =>
      intro h
      have hlist := congrArg String.toList h
      simp [relation] at hlist

def StepInput.relation : StepInput → String
  | source dataset => dataset.relation
  | step name => name

namespace Chain

theorem relation_asInput (chain : Chain) : chain.asInput.relation = chain.relation := by
  cases chain <;> rfl

theorem label_asInput (chain : Chain) : chain.asInput.label = chain.name := by
  cases chain <;> rfl

/-!
## Writing again
-/

/-- The fragment of the step is its rendering after this chain. -/
def Kept (parent : Chain) (s : Step) : Prop :=
  ∃ rendered, s.renderFrom parent.relation parent.name = .ok rendered ∧ s.fragment = rendered.sql

theorem Reachable.kept {chain : Chain} (h : Reachable chain) : EachStep Kept chain := by
  apply h.eachStep
  intro workshop chain transformName args options before next after e
  exact ⟨e.rendered, e.render_eq, rfl⟩

theorem Reachable.relation_ne_empty {chain : Chain} (h : Reachable chain) :
    chain.relation ≠ "" := by
  cases chain with
  | root dataset => exact dataset.relation_ne_empty
  | step parent name s =>
      apply Text.ne_empty_of_isIdentifier
      apply h.wellNamed.identifiers name
      simp [stepNames]

theorem Reachable.parent {parent : Chain} {name : String} {s : Step}
    (h : Reachable (.step parent name s)) : Reachable parent := by
  cases h with
  | extend hchain hextend =>
      rcases extend_eq_ok_iff.mp hextend with ⟨e⟩
      have hparent := congrArg parent? e.next_eq
      simp only [parent?, Option.some.injEq] at hparent
      rw [hparent]
      exact hchain

theorem referredSource_relation {chain : Chain} (h : chain.relation ≠ "")
    (before : List StepFragment) :
    chain.referredSource StepInput.relation before = chain.relation := by
  unfold referredSource
  rw [relation_asInput]
  simp only [h, if_false]

theorem renderSteps_relation {chain : Chain} (h : Reachable chain) :
    chain.renderSteps StepInput.relation = .ok chain.fragments := by
  induction chain with
  | root dataset => rfl
  | step parent name s ih =>
      rcases h.kept.right with ⟨rendered, hrender, hfragment⟩
      unfold renderSteps
      rw [ih h.parent]
      simp only [referredSource_relation h.parent.relation_ne_empty, label_asInput, hrender]
      rw [← hfragment]
      rfl

/-!
## Scope
-/

theorem map_name_fragments (chain : Chain) :
    chain.fragments.map StepFragment.name = chain.stepNames := by
  induction chain with
  | root dataset => rfl
  | step parent name s ih => simp [fragments, stepNames, ih]

theorem length_fragments (chain : Chain) : chain.fragments.length = chain.depth := by
  rw [← length_stepNames, ← map_name_fragments, List.length_map]

theorem length_lineage (chain : Chain) : chain.lineage.length = chain.depth := by
  rw [← length_stepNames, ← map_name_lineage, List.length_map]

theorem asInput_eq (chain : Chain) :
    chain.asInput =
      match chain.fragments.getLast? with
      | none => .source chain.source
      | some fragment => .step fragment.name := by
  cases chain with
  | root dataset => rfl
  | step parent name s => simp [fragments, asInput]

/-- The fragment at a place comes from the step at that place, written from what its input
refers to. -/
structure FragmentOf (chain : Chain) (fragment : StepFragment) (s : Step) : Prop where
  step_eq : chain.step? = some s
  name_eq : fragment.name = chain.name
  transform_eq : fragment.transform = s.transform.name
  columns_eq : fragment.columns = s.output
  renders : ∃ output,
    s.renderFrom fragment.input.relation fragment.input.label = .ok ⟨fragment.sql, output⟩

theorem fragmentOf_lineage {chain : Chain} (h : Reachable chain) (i : Nat)
    (fragment : StepFragment) (hi : chain.fragments[i]? = some fragment) :
    ∃ upTo s, chain.lineage[i]? = some upTo ∧ FragmentOf upTo fragment s := by
  induction chain with
  | root dataset => simp [fragments] at hi
  | step parent name s ih =>
      unfold fragments at hi
      unfold lineage
      by_cases hlast : i < parent.depth
      · rw [List.getElem?_append_left (by rwa [length_fragments])] at hi
        rw [List.getElem?_append_left (by rwa [length_lineage])]
        exact ih h.parent hi
      · rw [List.getElem?_append_right (by rw [length_fragments]; omega),
          length_fragments] at hi
        rw [List.getElem?_append_right (by rw [length_lineage]; omega), length_lineage]
        rcases h.kept.right with ⟨rendered, hrender, hfragment⟩
        have hzero : i - parent.depth = 0 := by
          by_contra hne
          rw [List.getElem?_singleton, if_neg hne] at hi
          cases hi
        rw [hzero] at hi ⊢
        cases hi
        refine ⟨_, s, rfl, rfl, rfl, rfl, rfl, rendered.output, ?_⟩
        rw [relation_asInput, label_asInput, hrender, hfragment]

theorem input_first (chain : Chain) (first : StepFragment)
    (h : chain.fragments[0]? = some first) : first.input = .source chain.source := by
  induction chain with
  | root dataset => simp [fragments] at h
  | step parent name s ih =>
      unfold fragments at h
      cases hbefore : parent.fragments with
      | nil =>
          rw [hbefore] at h
          cases h
          change parent.asInput = .source parent.source
          rw [asInput_eq, hbefore]
          rfl
      | cons fragment rest =>
          rw [hbefore] at h
          cases h
          exact ih (by rw [hbefore]; rfl)

theorem input_next (chain : Chain) (i : Nat) (before after : StepFragment)
    (hbefore : chain.fragments[i]? = some before)
    (hafter : chain.fragments[i + 1]? = some after) : after.input = .step before.name := by
  induction chain with
  | root dataset => simp [fragments] at hafter
  | step parent name s ih =>
      unfold fragments at hbefore hafter
      have hlt : i < parent.fragments.length := by
        by_contra hge
        rw [List.getElem?_eq_none (by simp; omega)] at hafter
        cases hafter
      rw [List.getElem?_append_left hlt] at hbefore
      by_cases hmid : i + 1 < parent.fragments.length
      · rw [List.getElem?_append_left hmid] at hafter
        exact ih hbefore hafter
      · have hend : i + 1 = parent.fragments.length := by omega
        rw [hend, List.getElem?_concat_length] at hafter
        cases hafter
        have hlast : parent.fragments.getLast? = some before := by
          rw [List.getLast?_eq_getElem?, ← hbefore, ← hend]
          rfl
        change parent.asInput = .step before.name
        rw [asInput_eq, hlast]

theorem getLast?_fragments {chain : Chain} (h : chain.isRoot = false) :
    ∃ last, chain.fragments.getLast? = some last ∧ last.name = chain.name := by
  cases chain with
  | root dataset => cases h
  | step parent name s => exact ⟨_, List.getLast?_concat, rfl⟩

theorem compile_cte {chain : Chain} (hroot : chain.isRoot = false) {before after : Resolver}
    {query : CompiledQuery} (h : chain.compile .cte before = (.ok query, after)) :
    query.steps = chain.fragments ∧ query.sql = chain.withStatement query.columns query.steps := by
  unfold compile at h
  rw [Asking.bind_eq_ok_iff] at h
  rcases h with ⟨columns, between, -, h⟩
  rw [Asking.lift_eq_ok_iff] at h
  unfold compileTo at h
  rw [hroot] at h
  rcases h with ⟨h, -⟩
  cases h
  exact ⟨rfl, rfl⟩

/-- Writing a reachable chain again, each step from the base relation or the name of the step
before it, gives the fragments that were stored, and these are what the statement with common
table expressions lists: one for each step from the first to the last, each written from the base
dataset or from the expression just before it, with the last one selected from. -/
theorem Reachable.fragments_kept_and_scoped {chain : Chain} (h : Reachable chain) :
    chain.renderSteps StepInput.relation = .ok chain.fragments ∧
    chain.fragments.map StepFragment.name = chain.lineage.map Chain.name ∧
    (∀ (i : Nat) (fragment : StepFragment), chain.fragments[i]? = some fragment →
      ∃ (upTo : Chain) (s : Step), chain.lineage[i]? = some upTo ∧ FragmentOf upTo fragment s) ∧
    (∀ first : StepFragment, chain.fragments[0]? = some first → first.input = .source chain.source) ∧
    (∀ (i : Nat) (before after : StepFragment),
      chain.fragments[i]? = some before → chain.fragments[i + 1]? = some after →
      after.input = .step before.name) ∧
    (∀ before after query, chain.isRoot = false →
      chain.compile .cte before = (.ok query, after) →
      query.steps = chain.fragments ∧
      ∃ last, query.steps.getLast? = some last ∧
        query.sql =
          "WITH " ++
            Text.join ",\n" (query.steps.map fun fragment =>
              fragment.name ++ " AS (\n" ++ fragment.sql ++ "\n)") ++
            "\n" ++ "SELECT " ++ Text.join ", " query.columns.names ++
            "\nFROM " ++ last.name) := by
  refine ⟨renderSteps_relation h, ?_, fragmentOf_lineage h, input_first chain, input_next chain, ?_⟩
  · rw [map_name_fragments, map_name_lineage]
  · intro before after query hroot hcompile
    rcases compile_cte hroot hcompile with ⟨hsteps, hsql⟩
    rcases getLast?_fragments hroot with ⟨last, hlast, hname⟩
    refine ⟨hsteps, last, hsteps ▸ hlast, ?_⟩
    have htable : Sql.tableExpression = fun fragment : StepFragment =>
        fragment.name ++ " AS (\n" ++ fragment.sql ++ "\n)" := rfl
    rw [hsql, hname]
    unfold withStatement Sql.finalSelect
    rw [htable]
    simp only [String.append_assoc]

theorem fragments_of_copiedTwice :
    Reachable copiedTwice ∧ copiedTwice.fragments.length = 2 ∧
    copiedTwice.renderSteps StepInput.relation = .ok copiedTwice.fragments ∧
    ∀ before after, copiedTwice.fragments[0]? = some before →
      copiedTwice.fragments[1]? = some after → after.input = .step before.name :=
  have kept := reachable_copiedTwice.fragments_kept_and_scoped
  ⟨reachable_copiedTwice, rfl, kept.left, kept.right.right.right.right.left 0⟩

end Chain
end TransformChain
