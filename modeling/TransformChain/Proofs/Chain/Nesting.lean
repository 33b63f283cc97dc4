import TransformChain.Proofs.Chain.Fragments
import TransformChain.Proofs.Library.Partners

/-!
# Nested statements

A nested statement is the one with common table expressions with the sources put in: where a
stored fragment reads from the step before it, the nested text reads from that step's own nested
text in parentheses, and nothing else differs.
-/

namespace TransformChain

namespace Dataset

theorem not_isIdentifier_relation (dataset : Dataset) :
    Text.isIdentifier dataset.relation = false := by
  rw [Bool.eq_false_iff]
  intro h
  rw [Text.isIdentifier_iff] at h
  rcases h with ⟨c, rest, htext, hstart, hrest⟩
  cases dataset with
  | table name columns =>
      have hdot : '.' ∈ c :: rest := by
        rw [← htext]
        simp [relation, TableName.display]
      rcases List.mem_cons.mp hdot with heq | hmem
      · rw [← heq] at hstart
        exact absurd hstart (by decide)
      · exact absurd (hrest '.' hmem) (by decide)
  | query name sql columns =>
      have hopen : (query name sql columns).relation.toList =
          '(' :: '\n' :: (sql ++ "\n)").toList := by
        simp [relation]
      rw [hopen] at htext
      cases htext
      exact absurd hstart (by decide)

theorem trim_relation_ne_empty (dataset : Dataset) : Text.trim dataset.relation ≠ "" := by
  cases dataset with
  | table name columns =>
      apply Text.trim_ne_empty_of_mem '.'
      · simp [relation, TableName.display]
      · decide
  | query name sql columns =>
      apply Text.trim_ne_empty_of_mem '('
      · simp [relation]
      · decide

end Dataset

theorem Sql.trim_subquery_ne_empty (sql : String) : Text.trim (Sql.subquery sql) ≠ "" := by
  apply Text.trim_ne_empty_of_mem '('
  · simp [Sql.subquery]
  · decide

theorem Text.trim_ne_empty_of_isIdentifier {s : String} (h : isIdentifier s = true) :
    trim s ≠ "" := by
  rcases (isIdentifier_iff s).mp h with ⟨c, rest, htext, hstart, -⟩
  apply trim_ne_empty_of_mem c
  · rw [htext]
    exact List.mem_cons_self
  · exact isBlank_of_isIdentifierStart hstart

/-- The transform is one of the library, and not the one that renders its caller's text. -/
def Transform.FromLibrary (transform : Transform) : Prop :=
  ∃ listing body, (listing, body) ∈ Library.entries ∧ listing.name ≠ "apply" ∧
    Transform.create listing body = .ok transform

namespace Chain

/-!
## Sources
-/

/-- What the step at a place reads from in a nested statement: the base relation, or else the
nested text of the step before it. -/
def nestedSource (base : String) (steps : List StepFragment) : Nat → String
  | 0 => base
  | i + 1 =>
      match steps[i]? with
      | some fragment => Sql.subquery fragment.sql
      | none => base

theorem nestedSource_append (base : String) {before : List StepFragment} {i : Nat}
    (h : i ≤ before.length) (after : List StepFragment) :
    nestedSource base (before ++ after) i = nestedSource base before i := by
  cases i with
  | zero => rfl
  | succ i =>
      simp only [nestedSource]
      rw [List.getElem?_append_left h]

theorem referredSource_nested {chain : Chain} {steps : List StepFragment}
    (h : steps.length = chain.depth) :
    chain.referredSource nestedReference steps =
      nestedSource chain.source.relation steps chain.depth := by
  cases chain with
  | root dataset =>
      change (if dataset.relation = "" then _ else dataset.relation) = dataset.relation
      rw [if_neg dataset.relation_ne_empty]
  | step parent name s =>
      change (match steps.getLast? with
        | some fragment => Sql.subquery fragment.sql
        | none => parent.source.relation) = _
      rw [List.getLast?_eq_getElem?, h]
      rfl

theorem trim_nestedSource_ne_empty (dataset : Dataset) (steps : List StepFragment) (i : Nat) :
    Text.trim (nestedSource dataset.relation steps i) ≠ "" := by
  cases i with
  | zero => exact dataset.trim_relation_ne_empty
  | succ i =>
      simp only [nestedSource]
      cases steps[i]? with
      | none => exact dataset.trim_relation_ne_empty
      | some fragment => exact Sql.trim_subquery_ne_empty fragment.sql

theorem Reachable.trim_relation_ne_empty {chain : Chain} (h : Reachable chain) :
    Text.trim chain.relation ≠ "" := by
  cases chain with
  | root dataset => exact dataset.trim_relation_ne_empty
  | step parent name s =>
      apply Text.trim_ne_empty_of_isIdentifier
      apply h.wellNamed.identifiers name
      simp [stepNames]

/-!
## Steps
-/

/-- No dataset that a step is given has the text that the step's input has when it is nested. -/
def PartnersApart : Chain → Prop :=
  EachStep fun parent s => ∀ before, parent.renderSteps nestedReference = .ok before →
    ∀ entry ∈ s.arguments.datasets,
      entry.2.relation ≠ parent.referredSource nestedReference before

theorem Reachable.bound {chain : Chain} (h : Reachable chain) :
    EachStep (fun _ s => ∃ args ns, s.transform.bind args ns = .ok s.arguments) chain := by
  apply h.eachStep
  intro workshop chain transformName args options before next after e
  exact ⟨args, workshop.ns, e.bind_eq⟩

theorem sameRendering_of_fromLibrary {parent : Chain} {s : Step} {source : String}
    (hlibrary : s.transform.FromLibrary)
    (hbound : ∃ args ns, s.transform.bind args ns = .ok s.arguments)
    (hpartners : ∀ entry ∈ s.arguments.datasets, entry.2.relation = parent.relation →
      Keyed.get? parent.relation s.datasets = some ⟨parent.name, s.input⟩)
    (hrelation : Text.trim parent.relation ≠ "") (hsource : Text.trim source ≠ "")
    (hapart : ∀ entry ∈ s.arguments.datasets, entry.2.relation ≠ source) :
    Template.SameRendering parent.relation source (s.renderFrom parent.relation parent.name)
      (s.renderFrom source parent.name) := by
  rcases hlibrary with ⟨listing, body, hentry, hname, hcreate⟩
  rcases Library.exists_mem_trees hentry hname with ⟨nodes, hmem⟩
  rw [Library.create_of_mem_trees hmem, Except.ok.injEq] at hcreate
  rcases hbound with ⟨args, ns, hbind⟩
  have hprints : s.transform.template.body.onlyPrintsSource = true := by
    rw [← hcreate]
    exact Library.onlyPrintsSource_of_mem_trees hmem
  have halike : Template.AsksAlike ⟨s.transform.template, s.context source parent.name⟩
      parent.relation source
      ((Template.Scene.reading ⟨s.transform.template, s.context source parent.name⟩
        parent.relation).point Template.callBudget) := by
    intro text hpasses
    rw [← hcreate] at hpasses hbind
    rcases Library.exists_partner_of_passes hmem hbind rfl hpasses with ⟨entry, hmem, htext⟩
    have hother : text ≠ source := by
      rw [← htext]
      exact hapart entry hmem
    by_cases hsame : text = parent.relation
    · have hpartner := hpartners entry hmem (htext.trans hsame)
      rw [hsame] at hother ⊢
      exact Template.answersAlike_of_partner hother hpartner
    · exact Template.answersAlike_of_ne hsame hother
  exact Template.render_alike hprints hrelation hsource halike

theorem exists_segments {parent : Chain} {s : Step} (hparent : Reachable parent)
    (hlibrary : s.transform.FromLibrary)
    (hbound : ∃ args ns, s.transform.bind args ns = .ok s.arguments) (hkept : Kept parent s)
    {source : String} (hsource : Text.trim source ≠ "")
    (hroot : parent.isRoot = true → source = parent.relation)
    (hapart : ∀ entry ∈ s.arguments.datasets, entry.2.relation ≠ source) :
    ∃ segments rendered, s.renderFrom source parent.name = .ok rendered ∧
      s.fragment = Text.trim (Text.join parent.relation segments) ∧
      rendered.sql = Text.trim (Text.join source segments) := by
  rcases hkept with ⟨stored, hstored, hfragment⟩
  -- no partner has the relation of the input: a step goes by a name, and a root is the source
  have hpartners : ∀ entry ∈ s.arguments.datasets, entry.2.relation ≠ parent.relation := by
    intro entry hmem
    cases parent with
    | root dataset =>
        rw [← hroot rfl]
        exact hapart entry hmem
    | step before name last =>
        intro heq
        have hidentifier : Text.isIdentifier name = true := by
          apply hparent.wellNamed.identifiers name
          simp [stepNames]
        change entry.2.relation = name at heq
        rw [← heq, entry.2.not_isIdentifier_relation] at hidentifier
        cases hidentifier
  rcases sameRendering_of_fromLibrary hlibrary hbound
    (fun entry hmem heq => absurd heq (hpartners entry hmem)) hparent.trim_relation_ne_empty
    hsource hapart with ⟨error, hleft, -⟩ | ⟨segments, output, hleft, hright⟩
  · rw [hstored] at hleft
    cases hleft
  · rw [hstored] at hleft
    cases hleft
    exact ⟨segments, _, hright, hfragment, rfl⟩

/-- The nested step is the stored fragment with another source put in. -/
structure Substituted (fragment nested : StepFragment) (source : String) : Prop where
  name_eq : nested.name = fragment.name
  transform_eq : nested.transform = fragment.transform
  input_eq : nested.input = fragment.input
  columns_eq : nested.columns = fragment.columns
  texts : ∃ segments, fragment.sql = Text.trim (Text.join fragment.input.relation segments) ∧
    nested.sql = Text.trim (Text.join source segments)

structure Nested (chain : Chain) (steps : List StepFragment) : Prop where
  length_eq : steps.length = chain.fragments.length
  substituted : ∀ (i : Nat) (fragment nested : StepFragment),
    chain.fragments[i]? = some fragment → steps[i]? = some nested →
    Substituted fragment nested (nestedSource chain.source.relation steps i)

theorem nested_root (dataset : Dataset) : (root dataset).Nested [] := by
  refine ⟨rfl, ?_⟩
  intro i fragment nested hfragment _
  cases hfragment

theorem Nested.concat {parent : Chain} {before : List StepFragment} (h : parent.Nested before)
    {name sql : String} {s : Step} {segments : List String}
    (hstored : s.fragment = Text.trim (Text.join parent.relation segments))
    (hnested : sql =
      Text.trim (Text.join (parent.referredSource nestedReference before) segments)) :
    (step parent name s).Nested
      (before ++ [⟨name, s.transform.name, sql, parent.asInput, s.output⟩]) := by
  obtain ⟨hlength, hsteps⟩ := h
  rw [length_fragments] at hlength
  constructor
  · simp [fragments, hlength, length_fragments]
  · intro i fragment nested hfragment hstep
    unfold fragments at hfragment
    by_cases hlast : i < parent.depth
    · rw [List.getElem?_append_left (by rwa [length_fragments])] at hfragment
      rw [List.getElem?_append_left (by rwa [hlength])] at hstep
      rw [nestedSource_append _ (by rw [hlength]; exact Nat.le_of_lt hlast)]
      exact hsteps i fragment nested hfragment hstep
    · rw [List.getElem?_append_right (by rw [length_fragments]; omega),
        length_fragments] at hfragment
      rw [List.getElem?_append_right (by rw [hlength]; omega), hlength] at hstep
      have hplace : i = parent.depth := by
        by_contra hne
        rw [List.getElem?_singleton, if_neg (by omega)] at hstep
        cases hstep
      rw [hplace, Nat.sub_self] at hfragment hstep
      cases hfragment
      cases hstep
      refine ⟨rfl, rfl, rfl, rfl, segments, ?_, ?_⟩
      · rw [relation_asInput]
        exact hstored
      · rw [hplace, nestedSource_append _ (by rw [hlength])]
        rw [referredSource_nested hlength] at hnested
        exact hnested

theorem Nested.trim_source_ne_empty {chain : Chain} {steps : List StepFragment}
    (h : chain.Nested steps) : Text.trim (chain.referredSource nestedReference steps) ≠ "" := by
  rw [referredSource_nested (h.length_eq.trans (length_fragments chain))]
  exact trim_nestedSource_ne_empty _ _ _

theorem Reachable.exists_nested {chain : Chain} (h : Reachable chain)
    (hlibrary : EachStep (fun _ s => s.transform.FromLibrary) chain)
    (hapart : PartnersApart chain) :
    ∃ steps, chain.renderSteps nestedReference = .ok steps ∧ chain.Nested steps := by
  induction chain with
  | root dataset => exact ⟨[], rfl, nested_root dataset⟩
  | step parent name s ih =>
      rcases ih h.parent hlibrary.left hapart.left with ⟨before, hbefore, hsteps⟩
      have hroot : parent.isRoot = true →
          parent.referredSource nestedReference before = parent.relation := by
        intro hroot
        rw [referredSource_nested (hsteps.length_eq.trans (length_fragments parent))]
        cases parent with
        | root dataset => rfl
        | step _ _ _ => cases hroot
      rcases exists_segments h.parent hlibrary.right h.bound.right h.kept.right
        hsteps.trim_source_ne_empty hroot (hapart.right before hbefore)
        with ⟨segments, rendered, hrender, hstored, hnested⟩
      refine ⟨before ++ [⟨name, s.transform.name, rendered.sql, parent.asInput, s.output⟩], ?_,
        hsteps.concat hstored hnested⟩
      unfold renderSteps
      rw [hbefore]
      simp only [label_asInput, hrender]

/-!
## Compilation
-/

def nestedQuery (query : CompiledQuery) (steps : List StepFragment) : CompiledQuery where
  sql :=
    match steps.getLast? with
    | some last => Sql.finalSelect query.columns (Sql.subquery last.sql)
    | none => query.sql
  columns := query.columns
  style := .nested
  steps := steps

theorem compileTo_nested {chain : Chain} {steps : List StepFragment}
    (hsteps : chain.renderSteps nestedReference = .ok steps) (hnested : chain.Nested steps)
    (columns : Schema) :
    ∃ query, chain.compileTo columns .cte = .ok query ∧
      chain.compileTo columns .nested = .ok (nestedQuery query steps) := by
  cases chain with
  | root dataset =>
      cases hsteps
      exact ⟨_, rfl, rfl⟩
  | step parent name s =>
      refine ⟨_, rfl, ?_⟩
      have hne : steps.getLast? ≠ none := by
        intro hnone
        rw [List.getLast?_eq_none_iff] at hnone
        have hlength := hnested.length_eq
        rw [hnone] at hlength
        simp [fragments] at hlength
      cases hlast : steps.getLast? with
      | none => exact absurd hlast hne
      | some last =>
          simp only [compileTo, isRoot, Bool.false_eq_true, if_false, hsteps, nestedQuery, tipSql,
            hlast]

theorem compile_nested {chain : Chain} {steps : List StepFragment}
    (hsteps : chain.renderSteps nestedReference = .ok steps) (hnested : chain.Nested steps)
    (before : Resolver) :
    chain.compile .nested before =
      match chain.compile .cte before with
      | (.ok query, after) => (.ok (nestedQuery query steps), after)
      | (.error e, after) => (.error e, after) := by
  unfold compile
  rw [Asking.bind_apply, Asking.bind_apply]
  cases chain.outputColumns before with
  | mk result between =>
      cases result with
      | error e => rfl
      | ok columns =>
          rcases compileTo_nested hsteps hnested columns with ⟨query, hcte, hnested⟩
          simp only [Asking.lift_apply, hcte, hnested]

/-- A template that only prints its source, in any context: from two sources that are not blank,
and that the template does not pass on as datasets, either both renderings fail with the same error,
or they declare the same columns and write the same segments around their sources.  So the nested
style gives, wherever a chain is built with templates of the library and no joined dataset has the
nested text of its step's input, what the style with common table expressions gives, with the
sources put in. -/
theorem nested_is_cte_with_sources_put_in :
    (∀ (template : Template) (context : Template.Context) (s t : String),
      template.body.onlyPrintsSource = true → Text.trim s ≠ "" → Text.trim t ≠ "" →
      (∀ text, Template.Passes ⟨template, { context with source := s }⟩
        (Template.Scene.point ⟨template, { context with source := s }⟩ Template.callBudget) text →
        text ≠ s ∧ text ≠ t) →
      Template.SameRendering s t (Template.render template { context with source := s })
        (Template.render template { context with source := t })) ∧
    (∀ chain : Chain, Reachable chain → EachStep (fun _ s => s.transform.FromLibrary) chain →
      PartnersApart chain →
      ∃ steps, chain.renderSteps nestedReference = .ok steps ∧ chain.Nested steps ∧
        ∀ before, chain.compile .nested before =
          match chain.compile .cte before with
          | (.ok query, after) => (.ok (nestedQuery query steps), after)
          | (.error e, after) => (.error e, after)) := by
  constructor
  · intro template context s t hprints hs ht hclear
    exact Template.render_parametric hprints hs ht hclear
  · intro chain h hlibrary hapart
    rcases h.exists_nested hlibrary hapart with ⟨steps, hsteps, hnested⟩
    exact ⟨steps, hsteps, hnested, compile_nested hsteps hnested⟩

/-!
## A joined chain

Numbers that are ordered and then joined with their labels.
-/

def ordering : Transform :=
  Library.transformOf Library.orderListing Library.orderBody Library.orderNodes

def joining : Transform :=
  Library.transformOf Library.joinListing Library.joinBody Library.joinNodes

def labels : Dataset :=
  .query "LABELS" "SELECT 1 AS N, 'one' AS LABEL" (some [⟨"N", none⟩, ⟨"LABEL", none⟩])

def joiningArguments : Bound :=
  ⟨[("join_table", .dataset labels), ("join_columns", .mapping [("N", .str "N")]),
    ("join_type", .str "LEFT"), ("join_prefix", .null)]⟩

def orderedText : String :=
  "SELECT\n  N\nFROM (\nSELECT 1 AS N\n)\nORDER BY N DESC"

def ordered : Chain :=
  .step numbers "STEP_1_ORDER"
    ⟨ordering, ⟨[("order_by", .mapping [("N", .str "desc")])]⟩, some [⟨"N", none⟩], [],
      orderedText, some [⟨"N", none⟩]⟩

def joinedStep : Step :=
  ⟨joining, joiningArguments, some [⟨"N", none⟩],
    [(labels.relation, ⟨"LABELS", some [⟨"N", none⟩, ⟨"LABEL", none⟩]⟩)],
    "SELECT\n  l.N,\n  r.N AS LABELS_N,\n  r.LABEL AS LABELS_LABEL\nFROM STEP_1_ORDER l\n" ++
      "LEFT JOIN (\nSELECT 1 AS N, 'one' AS LABEL\n) r\n  ON l.N = r.N",
    some [⟨"N", none⟩, ⟨"LABELS_N", none⟩, ⟨"LABELS_LABEL", none⟩]⟩

def joined : Chain :=
  .step ordered "STEP_2_JOIN" joinedStep

def joiningWorkshop : Workshop :=
  ⟨⟨[ordering, joining]⟩, none, "STEP"⟩

theorem reachable_ordered : Reachable ordered := by
  have hrender : (unwritten ordering ⟨[("order_by", .mapping [("N", .str "desc")])]⟩
      (some [⟨"N", none⟩]) []).renderFrom numbers.relation numbers.name =
        .ok ⟨orderedText, some [⟨"N", none⟩]⟩ :=
    eq_ok_of_toOption (by decide +kernel)
  have hextend : numbers.extend joiningWorkshop "order"
      [("order_by", .mapping [("N", .str "desc")])] ⟨none, none⟩ default =
        (.ok ordered, default) :=
    extend_eq_ok_iff.mpr ⟨⟨ordering, some [⟨"N", none⟩], default, _, [], "STEP_1_ORDER", _, rfl, rfl,
      rfl, rfl, rfl, hrender, rfl⟩⟩
  exact .extend (.root _) hextend

theorem reachable_joined : Reachable joined := by
  have hrender : (unwritten joining joiningArguments (some [⟨"N", none⟩])
      joinedStep.datasets).renderFrom ordered.relation ordered.name =
        .ok ⟨joinedStep.fragment, joinedStep.output⟩ :=
    eq_ok_of_toOption (by decide +kernel)
  have hextend : ordered.extend joiningWorkshop "join"
      [("join_table", .dataset labels), ("join_columns", .mapping [("N", .str "N")])]
      ⟨none, none⟩ default = (.ok joined, default) :=
    extend_eq_ok_iff.mpr ⟨⟨joining, some [⟨"N", none⟩], default, joiningArguments,
      joinedStep.datasets, "STEP_2_JOIN", _, rfl, rfl, rfl, rfl, rfl, hrender, rfl⟩⟩
  exact .extend reachable_ordered hextend

theorem fromLibrary_joined : EachStep (fun _ s => s.transform.FromLibrary) joined := by
  refine ⟨⟨trivial, ?_⟩, ?_⟩
  · exact ⟨Library.orderListing, Library.orderBody, by simp [Library.entries], by decide,
      Library.create_of_mem_trees (by simp [Library.trees])⟩
  · exact ⟨Library.joinListing, Library.joinBody, by simp [Library.entries], by decide,
      Library.create_of_mem_trees (by simp [Library.trees])⟩

theorem partnersApart_joined : PartnersApart joined := by
  refine ⟨⟨trivial, ?_⟩, ?_⟩
  · intro before _ entry hentry
    cases hentry
  · intro before hbefore entry hentry
    have hsteps : ordered.renderSteps nestedReference =
        .ok [⟨"STEP_1_ORDER", "order", orderedText, numbers.asInput, some [⟨"N", none⟩]⟩] :=
      eq_ok_of_toOption (by decide +kernel)
    rw [hsteps] at hbefore
    cases hbefore
    rw [List.mem_singleton.mp hentry]
    decide +kernel

theorem nested_of_joined :
    Template.SameRendering "STEP_1_ORDER" (Sql.subquery orderedText)
      (joinedStep.renderFrom "STEP_1_ORDER" "STEP_1_ORDER")
      (joinedStep.renderFrom (Sql.subquery orderedText) "STEP_1_ORDER") ∧
    Reachable joined ∧
    ∃ steps, joined.renderSteps nestedReference = .ok steps ∧ joined.Nested steps ∧
      joined.compile .nested default =
        match joined.compile .cte default with
        | (.ok query, after) => (.ok (nestedQuery query steps), after)
        | (.error e, after) => (.error e, after) := by
  constructor
  · apply nested_is_cte_with_sources_put_in.left joining.template
      (joinedStep.context "" "STEP_1_ORDER")
    · exact Library.onlyPrintsSource_of_mem_trees (by simp [Library.trees])
    · decide +kernel
    · decide +kernel
    · intro text hpasses
      have hbind : joining.bind
          [("join_table", .dataset labels), ("join_columns", .mapping [("N", .str "N")])] none =
            .ok joiningArguments := rfl
      rcases Library.exists_partner_of_passes (by simp [Library.trees]) hbind rfl hpasses
        with ⟨entry, hentry, htext⟩
      rw [List.mem_singleton.mp hentry] at htext
      rw [← htext]
      decide +kernel
  · rcases nested_is_cte_with_sources_put_in.right joined reachable_joined
      fromLibrary_joined partnersApart_joined with ⟨steps, hsteps, hnested, hcompile⟩
    exact ⟨reachable_joined, steps, hsteps, hnested, hcompile default⟩

end Chain
end TransformChain
