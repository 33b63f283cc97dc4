import TransformChain.Proofs.Chain.Nesting
import TransformChain.Proofs.Chain.Workspaces
import TransformChain.Proofs.Library.CustomText

/-!
# Chains of custom texts

The steps of such a chain hand on what their callers wrote.  A text is written once around the name
of what it reads from and once around the nested text of it, and is left alone both times.
-/

namespace TransformChain
namespace Chain

open Template Library

/-!
## Steps
-/

/-- The step hands on the text that its caller wrote in these segments. -/
structure Applies (s : Step) (segments : List String) : Prop where
  created : Transform.create applyListing applyBody = .ok s.transform
  given : ∃ args ns, Keyed.get? "sql" args = some (.str (customText segments)) ∧
    s.transform.bind args ns = .ok s.arguments
  custom : IsCustom segments

def statedBy (s : Step) : Value :=
  (Keyed.get? "output_columns" s.arguments.values).getD .null

namespace Applies

variable {s : Step} {segments : List String}

theorem transform_eq (h : Applies s segments) :
    s.transform = transformOf applyListing applyBody applyNodes := by
  have hcreated := h.created
  rw [create_apply, Except.ok.injEq] at hcreated
  exact hcreated.symm

theorem givenText (h : Applies s segments) (source label : String) :
    GivenText s.transform.template (s.context source label) segments (statedBy s) := by
  rcases h.given with ⟨args, ns, hsql, hbind⟩
  have hparameters : s.transform.parameters = applyListing.parameters := by
    rw [h.transform_eq]
    rfl
  rcases values_of_text hparameters hsql hbind with ⟨columns, hvalues⟩
  have hstated : statedBy s = columns := by
    unfold statedBy
    rw [hvalues]
    rfl
  constructor
  case body_eq =>
    rw [h.transform_eq]
    rfl
  case arguments_eq =>
    rw [hstated]
    exact hvalues
  case custom => exact h.custom

theorem renderFrom_eq (h : Applies s segments) (hcan : CanState (statedBy s))
    (source label : String) :
    s.renderFrom source label =
      if withSource source segments = "" then .error (.emptyRender "apply")
      else .ok ⟨withSource source segments, declaredOutput (statedColumns (statedBy s))⟩ := by
  have hname : s.transform.template.name = "apply" := by
    rw [h.transform_eq]
    rfl
  rw [← hname]
  exact (h.givenText source label).render_eq hcan

theorem writes (h : Applies s segments) (hcan : CanState (statedBy s)) {source : String}
    (hne : withSource source segments ≠ "") (label : String) :
    s.renderFrom source label =
      .ok ⟨withSource source segments, declaredOutput (statedColumns (statedBy s))⟩ := by
  rw [h.renderFrom_eq hcan, if_neg hne]

theorem canState (h : Applies s segments) {source label : String} {rendered : Rendered}
    (hrender : s.renderFrom source label = .ok rendered) : CanState (statedBy s) :=
  (h.givenText source label).canState hrender

theorem rewritten (h : Applies s segments) {parent : Chain} (hkept : Kept parent s)
    (hrelation : Text.trim parent.relation ≠ "") {source : String} (hsource : Text.trim source ≠ "")
    (label : String) :
    s.fragment = withSource parent.relation segments ∧
      ∃ output, s.renderFrom source label = .ok ⟨withSource source segments, output⟩ := by
  rcases hkept with ⟨rendered, hrender, hfragment⟩
  have hcan := h.canState hrender
  rw [h.renderFrom_eq hcan] at hrender
  split at hrender
  case isTrue => cases hrender
  case isFalse hne =>
    cases hrender
    refine ⟨hfragment, declaredOutput (statedColumns (statedBy s)), h.writes hcan ?_ label⟩
    intro hblank
    apply hne
    rw [withSource, Text.trim_join_eq_empty_iff hrelation]
    rwa [withSource, Text.trim_join_eq_empty_iff hsource] at hblank

end Applies

/-!
## Chains
-/

inductive AppliesTexts : Chain → List (List String) → Prop where
  | root (dataset : Dataset) : AppliesTexts (.root dataset) []
  | step {parent : Chain} {texts : List (List String)} {name : String} {s : Step}
      {segments : List String} :
      AppliesTexts parent texts → Applies s segments →
      AppliesTexts (.step parent name s) (texts ++ [segments])

/-- The texts of the steps, the first around the base relation, and every other around the reference
to the step before it. -/
def textsFrom (base : String) (references : List String) (texts : List (List String)) :
    List String :=
  List.zipWith withSource (base :: references) texts

theorem textsFrom_concat {references : List String} {texts : List (List String)}
    (h : references.length = texts.length) (base reference : String) (segments : List String) :
    textsFrom base (references ++ [reference]) (texts ++ [segments]) =
      textsFrom base references texts ++
        [withSource (references.getLast?.getD base) segments] := by
  unfold textsFrom
  induction references generalizing base texts with
  | nil =>
      cases texts with
      | nil => rfl
      | cons first rest => cases h
  | cons next references ih =>
      cases texts with
      | nil => cases h
      | cons first rest =>
          have hrest := ih (Nat.succ.inj h) next
          simp only [List.cons_append, List.zipWith_cons_cons] at hrest ⊢
          rw [hrest, List.getLast?_cons]
          rfl

section Chains

variable {chain : Chain} {texts : List (List String)}

theorem AppliesTexts.length_eq (h : AppliesTexts chain texts) : texts.length = chain.depth := by
  induction h with
  | root dataset => rfl
  | step _ _ ih => simp [depth, ih]

theorem relation_eq_getLast? (chain : Chain) :
    chain.relation = chain.stepNames.getLast?.getD chain.source.relation := by
  cases chain <;> simp [relation, stepNames, source]

theorem referredSource_eq_getLast? {steps : List StepFragment}
    (h : steps.length = chain.depth) :
    chain.referredSource nestedReference steps =
      (steps.map fun step => Sql.subquery step.sql).getLast?.getD chain.source.relation := by
  rw [referredSource_nested h, ← h]
  rcases steps.eq_nil_or_concat with rfl | ⟨front, last, rfl⟩
  · rfl
  · simp [nestedSource]

theorem map_sql_fragments (h : Reachable chain) (happlies : AppliesTexts chain texts) :
    chain.fragments.map StepFragment.sql =
      textsFrom chain.source.relation chain.stepNames texts := by
  induction happlies with
  | root dataset => rfl
  | @step parent texts name s segments hparent hs ih =>
      have hlength : parent.stepNames.length = texts.length := by
        rw [length_stepNames, hparent.length_eq]
      have hrelation := h.parent.trim_relation_ne_empty
      have hfragment := (hs.rewritten h.kept.right hrelation hrelation parent.name).left
      rw [relation_eq_getLast?] at hfragment
      simp only [fragments, stepNames, source, List.map_append, List.map_singleton]
      rw [textsFrom_concat hlength, ih h.parent, hfragment]

theorem AppliesTexts.exists_nested (happlies : AppliesTexts chain texts) (h : Reachable chain) :
    ∃ steps, chain.renderSteps nestedReference = .ok steps ∧ chain.Nested steps ∧
      steps.map StepFragment.sql =
        textsFrom chain.source.relation (steps.map fun step => Sql.subquery step.sql) texts := by
  induction happlies with
  | root dataset => exact ⟨[], rfl, nested_root dataset, rfl⟩
  | @step parent texts name s segments hparent hs ih =>
      rcases ih h.parent with ⟨before, hbefore, hnested, htexts⟩
      have hdepth : before.length = parent.depth :=
        hnested.length_eq.trans (length_fragments parent)
      rcases hs.rewritten h.kept.right h.parent.trim_relation_ne_empty
        hnested.trim_source_ne_empty parent.name with ⟨hstored, output, hrender⟩
      refine ⟨_, ?_, hnested.concat hstored rfl, ?_⟩
      · unfold renderSteps
        rw [hbefore]
        simp only [label_asInput, hrender]
        rfl
      · have hlength : (before.map fun step => Sql.subquery step.sql).length = texts.length := by
          rw [List.length_map, hdepth, hparent.length_eq]
        simp only [source, List.map_append, List.map_singleton]
        rw [textsFrom_concat hlength, ← htexts, ← referredSource_eq_getLast? hdepth]
        rfl

theorem compile_both {steps : List StepFragment} (hdepth : 1 ≤ chain.depth)
    (hsteps : chain.renderSteps nestedReference = .ok steps) (hnested : chain.Nested steps)
    {columns : Schema} (hcolumns : chain.declaredColumns = some columns) (resolver : Resolver) :
    ∃ last, steps.getLast? = some last ∧
      chain.compile .cte resolver =
        (.ok ⟨chain.withStatement columns chain.fragments, columns, .cte, chain.fragments⟩,
          resolver) ∧
      chain.compile .nested resolver =
        (.ok ⟨Sql.finalSelect columns (Sql.subquery last.sql), columns, .nested, steps⟩,
          resolver) := by
  have hlength : steps.length = chain.depth := hnested.length_eq.trans (length_fragments chain)
  have hne : steps ≠ [] := by
    intro hnil
    rw [hnil] at hlength
    rw [← hlength] at hdepth
    cases hdepth
  have hcompile : ∀ style, chain.compile style resolver =
      (chain.compileTo columns style, resolver) := by
    intro style
    rcases exists_settled hdepth style with ⟨result, hsettled⟩
    rw [hsettled.compile_eq resolver, hsettled.declared columns hcolumns]
  have hlast := List.getLast?_eq_some_getLast hne
  refine ⟨_, hlast, ?_, ?_⟩
  all_goals
    rw [hcompile]
    cases chain with
    | root dataset => cases hdepth
    | step parent name s => simp [compileTo, isRoot, hsteps, tipSql, hlast]

end Chains

/-- A step writes the text that its caller handed in with what it reads from in the places of the
tag, and nothing else is changed but white space at both ends; a blank text is refused.  In a chain
of such steps the fragments are the texts around the names of the steps before them, and the nested
steps are the same texts around the nested text of the step before them in parentheses.  So the
nested style selects from the last of these what the style with common table expressions selects by
name. -/
theorem applied_texts_untouched :
    (∀ (s : Step) (segments : List String), Applies s segments → ∀ source label : String,
      (CanState (statedBy s) →
        s.renderFrom source label =
          if Text.trim (Text.join source segments) = "" then .error (.emptyRender "apply")
          else .ok ⟨Text.trim (Text.join source segments),
            declaredOutput (statedColumns (statedBy s))⟩) ∧
      (¬CanState (statedBy s) → ∃ error, s.renderFrom source label = .error error)) ∧
    (∀ (chain : Chain) (texts : List (List String)), Reachable chain → AppliesTexts chain texts →
      chain.fragments.map StepFragment.sql =
        textsFrom chain.source.relation chain.stepNames texts ∧
      ∃ steps, chain.renderSteps nestedReference = .ok steps ∧ chain.Nested steps ∧
        steps.map StepFragment.sql =
          textsFrom chain.source.relation (steps.map fun step => Sql.subquery step.sql) texts ∧
        (∀ resolver, chain.compile .nested resolver =
          match chain.compile .cte resolver with
          | (.ok query, after) => (.ok (nestedQuery query steps), after)
          | (.error e, after) => (.error e, after)) ∧
        ∀ columns, 1 ≤ chain.depth → chain.declaredColumns = some columns → ∀ resolver,
          ∃ last, steps.getLast? = some last ∧
            chain.compile .cte resolver =
              (.ok ⟨chain.withStatement columns chain.fragments, columns, .cte, chain.fragments⟩,
                resolver) ∧
            chain.compile .nested resolver =
              (.ok ⟨Sql.finalSelect columns (Sql.subquery last.sql), columns, .nested, steps⟩,
                resolver)) := by
  constructor
  · intro s segments h source label
    refine ⟨fun hcan => h.renderFrom_eq hcan source label, fun hcannot => ?_⟩
    cases hrender : s.renderFrom source label with
    | error error => exact ⟨error, rfl⟩
    | ok rendered => exact absurd (h.canState hrender) hcannot
  · intro chain texts h happlies
    rcases happlies.exists_nested h with ⟨steps, hsteps, hnested, htexts⟩
    exact ⟨map_sql_fragments h happlies, steps, hsteps, hnested, htexts,
      compile_nested hsteps hnested, fun columns hdepth hcolumns resolver =>
        compile_both hdepth hsteps hnested hcolumns resolver⟩

/-!
## Two texts

Even numbers, and then pairs of them.  The first text holds a closing delimiter in quotes, single
braces and a percent sign; the second one has the tag in two places and ends with a brace.
-/

def handingOn : Transform :=
  transformOf applyListing applyBody applyNodes

def sifting : List String :=
  ["SELECT N, '\x7d\x7d' AS MARK FROM ", "\nWHERE N % 2 = 0 AND '%\x7d' <> '\x7b'"]

def pairing : List String :=
  ["SELECT l.N FROM ", " l, ", " r -- \x7b"]

theorem withSource_pairing (source : String) :
    withSource source pairing =
      "SELECT l.N FROM " ++ source ++ " l, " ++ source ++ " r -- \x7b" := by
  have hjoin : Text.join source pairing =
      "SELECT l.N FROM " ++ source ++ " l, " ++ source ++ " r -- \x7b" := by
    simp [Text.join, pairing, String.append_assoc]
  have htext : (Text.join source pairing).toList = 'S' ::
      ("ELECT l.N FROM ".toList ++ source.toList ++ " l, ".toList ++ source.toList ++
        " r -- ".toList ++ ['\x7b']) := by
    rw [hjoin]
    simp
  exact (Text.trim_of_isSolid (Text.isSolid_bracketed htext (by decide) (by decide))).trans hjoin

def handedOn (segments : List String) (columns : List String) : Bound :=
  ⟨[("sql", .str (customText segments)), ("output_columns", .list (columns.map .str))]⟩

def siftingStep : Step :=
  ⟨handingOn, handedOn sifting ["N", "MARK"], some [⟨"N", none⟩], [],
    withSource numbers.relation sifting, some [⟨"N", none⟩, ⟨"MARK", none⟩]⟩

def sifted : Chain :=
  .step numbers "STEP_1_APPLY" siftingStep

def pairingStep : Step :=
  ⟨handingOn, handedOn pairing ["N"], siftingStep.output, [],
    withSource "STEP_1_APPLY" pairing, some [⟨"N", none⟩]⟩

def paired : Chain :=
  .step sifted "STEP_2_APPLY" pairingStep

theorem applies_sifting : Applies siftingStep sifting :=
  ⟨create_apply, ⟨[("sql", .str (customText sifting)),
    ("output_columns", .list [.str "N", .str "MARK"])], none, rfl, rfl⟩,
    by decide⟩

theorem applies_pairing : Applies pairingStep pairing :=
  ⟨create_apply, ⟨[("sql", .str (customText pairing)), ("output_columns", .list [.str "N"])], none,
    rfl, rfl⟩, by decide⟩

def handingWorkshop : Workshop :=
  ⟨⟨[handingOn]⟩, none, "STEP"⟩

theorem reachable_sifted : Reachable sifted := by
  have hrender : (unwritten handingOn siftingStep.arguments (some [⟨"N", none⟩]) []).renderFrom
      numbers.relation numbers.name = .ok ⟨siftingStep.fragment, siftingStep.output⟩ :=
    applies_sifting.writes ⟨fun _ => rfl, by decide⟩ (by decide) numbers.name
  have hextend : numbers.extend handingWorkshop "apply"
      [("sql", .str (customText sifting)), ("output_columns", .list [.str "N", .str "MARK"])]
      ⟨none, none⟩ default = (.ok sifted, default) :=
    extend_eq_ok_iff.mpr ⟨⟨handingOn, some [⟨"N", none⟩], default, siftingStep.arguments, [],
      "STEP_1_APPLY", _, rfl, rfl, rfl, rfl, rfl, hrender, rfl⟩⟩
  exact .extend (.root _) hextend

theorem reachable_paired : Reachable paired := by
  have hrender : (unwritten handingOn pairingStep.arguments siftingStep.output []).renderFrom
      sifted.relation sifted.name = .ok ⟨pairingStep.fragment, pairingStep.output⟩ :=
    applies_pairing.writes ⟨fun _ => rfl, by decide⟩ (by decide) sifted.name
  have hextend : sifted.extend handingWorkshop "apply"
      [("sql", .str (customText pairing)), ("output_columns", .list [.str "N"])]
      ⟨none, none⟩ default = (.ok paired, default) :=
    extend_eq_ok_iff.mpr ⟨⟨handingOn, siftingStep.output, default, pairingStep.arguments, [],
      "STEP_2_APPLY", _, rfl, rfl, rfl, rfl, rfl, hrender, rfl⟩⟩
  exact .extend reachable_sifted hextend

theorem appliesTexts_paired : AppliesTexts paired [sifting, pairing] :=
  .step (.step (.root _) applies_sifting) applies_pairing

def siftedText : String :=
  "SELECT N, '\x7d\x7d' AS MARK FROM (\nSELECT 1 AS N\n)\nWHERE N % 2 = 0 AND '%\x7d' <> '\x7b'"

theorem paired_untouched :
    pairingStep.renderFrom "T" "T" = .ok ⟨"SELECT l.N FROM T l, T r -- \x7b", some [⟨"N", none⟩]⟩ ∧
    Reachable paired ∧ AppliesTexts paired [sifting, pairing] ∧
    ∃ steps, paired.renderSteps nestedReference = .ok steps ∧
      steps.map StepFragment.sql =
        [siftedText, "SELECT l.N FROM (\n" ++ siftedText ++ "\n) l, (\n" ++ siftedText ++
          "\n) r -- \x7b"] ∧
      ∃ last, steps.getLast? = some last ∧
        paired.compile .nested default =
          (.ok ⟨Sql.finalSelect [⟨"N", none⟩] (Sql.subquery last.sql), [⟨"N", none⟩], .nested,
            steps⟩, default) := by
  have hcan : CanState (statedBy pairingStep) := ⟨fun _ => rfl, by decide⟩
  have hwritten := (applied_texts_untouched.left pairingStep pairing applies_pairing "T" "T").left
    hcan
  rcases applied_texts_untouched.right paired [sifting, pairing] reachable_paired
    appliesTexts_paired with ⟨-, steps, hsteps, hnested, htexts, -, hcompile⟩
  rcases hcompile _ (by decide) rfl default with ⟨last, hlast, -, hquery⟩
  refine ⟨hwritten, reachable_paired, appliesTexts_paired, steps, hsteps, ?_, last, hlast, hquery⟩
  match steps, hnested.length_eq, htexts with
  | [first, second], _, htexts =>
      have hfirst : first.sql = siftedText := by
        have hhead := List.head_eq_of_cons_eq htexts
        rw [hhead]
        rfl
      have hsecond : second.sql = withSource (Sql.subquery first.sql) pairing :=
        List.head_eq_of_cons_eq (List.tail_eq_of_cons_eq htexts)
      rw [hfirst, withSource_pairing, Sql.subquery] at hsecond
      simp only [List.map_cons, List.map_nil, hfirst, hsecond, String.append_assoc]
      rfl

end Chain
end TransformChain
