import Mathlib.Data.List.DropRight
import TransformChain.Proofs.Chain.Nesting
import TransformChain.Proofs.Chain.Views
import TransformChain.Proofs.Library.Applying

/-!
# Steps that are written from a reference

A step that only prints what it reads from is written alike from the relation and from any text
that refers to it.  The templates of the library are like that, the one that renders its caller's
text if that text is.
-/

namespace TransformChain

/-!
## Applied texts
-/

namespace Library

open Template
open Template.Action

section Applied

variable {scene : Scene} {calls : Calls} {s t : String} {b : Nat} {sql : Value}
  {nodes : List Node}

theorem renderedText_agrees (hmacros : scene.template.body.macros = []) {x y : State}
    (hsql : find? "sql" x.frames = some sql)
    (hparse : Body.parse scene.template.name sql.display = .ok ⟨nodes, []⟩)
    (hprints : printing.nodes nodes = true) (hxy : SameState s t x y)
    (halike : AsksAlike scene s t ⟨b + 1, .expr (ask "render" [.var "sql"]), x⟩) :
    Agree s t (fun v w => Spliced s t v.display w.display)
      (eval (scene.reading s) (.within (scene.reading s) (b + 1)) (ask "render" [.var "sql"]) x)
      (eval (scene.reading t) (.within (scene.reading t) (b + 1)) (ask "render" [.var "sql"])
        y) := by
  have hall : scene.template.body.macros.all quiet.macroDef = true := by
    rw [hmacros]
    rfl
  have hcalls : CallsAgree scene s t b := callsAgree_of_deeper (deeper_agrees hall b) hall
  have hsql' : find? "sql" y.frames = some sql := by
    rcases sameLookup_find? hxy.frames "sql" with heq | ⟨hname, -, -⟩
    · rw [← heq, hsql]
    · exact absurd hname (by decide)
  have hargs : Yields (evalAll (scene.reading s) (.within (scene.reading s) (b + 1))
      [.var "sql"]) x [sql] x := by
    simp [evalAll, eval, hsql]
  have hnamed : Yields (evalNamed (scene.reading s) (.within (scene.reading s) (b + 1)) [])
      x [] x := by
    simp [evalNamed]
  have hnone : (scene.reading s).template.findMacro? "render" = none := by
    unfold findMacro?
    change scene.template.body.macros.find? _ = none
    rw [hmacros]
    rfl
  have hcall := halike.part (.callFunction hargs hnamed)
  have hnested : Agree s t (Spliced s t)
      (Action.nested scene.template.name
        ((Calls.within (scene.reading s) (b + 1)).body nodes) x)
      (Action.nested scene.template.name
        ((Calls.within (scene.reading t) (b + 1)).body nodes) y) := by
    apply agree_nested hxy
    intro hdepth
    apply execAll_agrees carries_printing hcalls nodes hprints
    · exact ⟨hxy.frames, hxy.declared, congrArg (· + 1) hxy.depth⟩
    · exact hcall.part (.callText hnone rfl hparse hdepth)
  have hleft : eval (scene.reading s) (.within (scene.reading s) (b + 1))
      (ask "render" [.var "sql"]) x = _ := eval_render hmacros hsql hparse
  have hright : eval (scene.reading t) (.within (scene.reading t) (b + 1))
      (ask "render" [.var "sql"]) y = _ := eval_render hmacros hsql' hparse
  rw [hleft, hright]
  apply hnested.bind
  intro text text' x' y' _ htext hstate
  exact agree_pure htext hstate

theorem frames_of_stated (hmacros : scene.template.body.macros = []) {x : State} {text : String}
    (h : Yields (exec scene calls (.branch
      [(.var "output_columns", [.run (ask "output_all" [.var "output_columns"])])] []))
        scene.start text x) :
    x.frames = scene.start.frames := by
  simp at h
  rcases h with ⟨value, -, h⟩
  split at h
  case isTrue =>
    rcases (yields_outputAll hmacros).mp h with ⟨-, columns, -, -, -, -, hafter⟩
    rw [hafter]
  case isFalse =>
    rw [h.right]

theorem execAll_cons_agrees {n : Node} {ns : List Node} {x y : State}
    (hn : Agree s t (Spliced s t) (exec (scene.reading s) (.within (scene.reading s) b) n x)
      (exec (scene.reading t) (.within (scene.reading t) b) n y))
    (hns : ∀ text x' y', Yields (exec (scene.reading s) (.within (scene.reading s) b) n) x text x' →
      SameState s t x' y' →
      Agree s t (Spliced s t) (execAll (scene.reading s) (.within (scene.reading s) b) ns x')
        (execAll (scene.reading t) (.within (scene.reading t) b) ns y')) :
    Agree s t (Spliced s t)
      (execAll (scene.reading s) (.within (scene.reading s) b) (n :: ns) x)
      (execAll (scene.reading t) (.within (scene.reading t) b) (n :: ns) y) := by
  simp only [execAll]
  apply hn.bind
  intro first first' x' y' hyields hfirst hstate
  apply (hns first x' y' hyields hstate).bind
  intro more more' x'' y'' _ hmore hstate
  exact agree_pure (carries_printing.append hfirst hmore) hstate

/-- The text that the template renders is all that it writes, and the source shows in it alone. -/
theorem apply_agrees (hmacros : scene.template.body.macros = [])
    (hsql : Keyed.get? "sql" scene.context.arguments = some sql)
    (hparse : Body.parse scene.template.name sql.display = .ok ⟨nodes, []⟩)
    (hprints : printing.nodes nodes = true)
    (halike : AsksAlike scene s t ⟨b + 1, .nodes applyNodes, (scene.reading s).start⟩) :
    Agree s t (Spliced s t)
      (execAll (scene.reading s) (.within (scene.reading s) (b + 1)) applyNodes
        (scene.reading s).start)
      (execAll (scene.reading t) (.within (scene.reading t) (b + 1)) applyNodes
        (scene.reading t).start) := by
  have hall : scene.template.body.macros.all quiet.macroDef = true := by
    rw [hmacros]
    rfl
  have hcalls : CallsAgree scene s t (b + 1) :=
    callsAgree_of_deeper (deeper_agrees hall (b + 1)) hall
  unfold applyNodes at halike ⊢
  apply execAll_cons_agrees
  · exact exec_agrees carries_printing hcalls _ (by decide) start_agrees (halike.part .nodesFirst)
  intro stated x y hstated hxy
  have hnone : (scene.reading s).template.body.macros = [] := hmacros
  have hframes : x.frames = (scene.reading s).start.frames := frames_of_stated hnone hstated
  have hfound : find? "sql" x.frames = some sql := by
    rw [hframes]
    change find? "sql" [Keyed.put "source_table" (.str s) scene.context.arguments] = some sql
    unfold find?
    rw [Keyed.get?_put_ne _ _ (by decide), hsql]
  have hrest := halike.part (.nodesRest hstated)
  apply execAll_cons_agrees
  · simp only [exec]
    apply (renderedText_agrees hmacros hfound hparse hprints hxy
      ((hrest.part .nodesFirst).part .output)).bind
    intro v w x' y' _ hvalue hstate
    exact agree_pure hvalue hstate
  intro text x' y' hyields hstate
  exact execAll_agrees carries_printing hcalls _ (by decide) hstate
    (hrest.part (.nodesRest hyields))

end Applied
end Library

/-!
## Steps
-/

namespace Chain

open Template

/-- The step does nothing with what it reads from but print it, in the place of the relation as
well as in that of the reference: where both differ, the template is one of the library.  A
partner that has the same relation as the input is known to have the same columns.  A text that the
caller hands in prints the source as a whole, and does not ask about the relation or the reference
as if it was a dataset. -/
inductive PrintsInput (reference : StepInput → String) (parent : Chain) (s : Step) : Prop where
  | unchanged (h : reference parent.asInput = parent.relation)
  | library (hlibrary : s.transform.FromLibrary)
      (hpartners : ∀ entry ∈ s.arguments.datasets, entry.2.relation = parent.relation →
        Keyed.get? parent.relation s.datasets = some ⟨parent.name, s.input⟩)
  | applied (sql : Value) (nodes : List Node)
      (hcreate : Transform.create Library.applyListing Library.applyBody = .ok s.transform)
      (hsql : Keyed.get? "sql" s.arguments.values = some sql)
      (hparse : Body.parse s.transform.name sql.display = .ok ⟨nodes, []⟩)
      (hprints : printing.nodes nodes = true)
      (hasks : ∀ text,
        Passes ⟨s.transform.template, s.context parent.relation parent.name⟩
          (Scene.point ⟨s.transform.template, s.context parent.relation parent.name⟩ callBudget)
          text →
        text ≠ parent.relation ∧ text ≠ reference parent.asInput)

section Rendering

variable {parent : Chain} {s : Step} {source : String}

theorem sameRendering_of_applied {sql : Value} {nodes : List Node}
    (hcreate : Transform.create Library.applyListing Library.applyBody = .ok s.transform)
    (hsql : Keyed.get? "sql" s.arguments.values = some sql)
    (hparse : Body.parse s.transform.name sql.display = .ok ⟨nodes, []⟩)
    (hprints : printing.nodes nodes = true)
    (hasks : ∀ text, Passes ⟨s.transform.template, s.context parent.relation parent.name⟩
      (Scene.point ⟨s.transform.template, s.context parent.relation parent.name⟩ callBudget) text →
      text ≠ parent.relation ∧ text ≠ source)
    (hrelation : Text.trim parent.relation ≠ "") (hsource : Text.trim source ≠ "") :
    SameRendering parent.relation source (s.renderFrom parent.relation parent.name)
      (s.renderFrom source parent.name) := by
  rw [Library.create_apply, Except.ok.injEq] at hcreate
  have htemplate : s.transform.template =
      ⟨s.transform.name, Library.applyBody, ⟨Library.applyNodes, []⟩⟩ := by
    rw [← hcreate]
    rfl
  have hclear : Clear ⟨s.transform.template, s.context source parent.name⟩ parent.relation source
      ((Scene.reading ⟨s.transform.template, s.context source parent.name⟩
        parent.relation).point callBudget) := hasks
  have halike := hclear.asksAlike
  have hrun : Agree parent.relation source (Spliced parent.relation source)
      ((Scene.reading ⟨s.transform.template, s.context source parent.name⟩
        parent.relation).run callBudget)
      ((Scene.reading ⟨s.transform.template, s.context source parent.name⟩
        source).run callBudget) := by
    rw [htemplate] at halike ⊢
    have hbudget : callBudget = 4095 + 1 := rfl
    rw [hbudget] at halike ⊢
    exact Library.apply_agrees rfl hsql hparse hprints halike
  exact sameRendering_of_agree hrelation hsource hrun

theorem PrintsInput.exists_rendered {reference : StepInput → String}
    (h : PrintsInput reference parent s)
    (hbound : ∃ args ns, s.transform.bind args ns = .ok s.arguments) (hkept : Kept parent s)
    (hrelation : Text.isSolid parent.relation = true)
    (hreference : Text.isSolid (reference parent.asInput) = true)
    (hapart : reference parent.asInput ≠ parent.relation →
      ∀ dataset : Dataset, dataset.relation ≠ reference parent.asInput) :
    ∃ rendered, s.renderFrom (reference parent.asInput) parent.name = .ok rendered ∧
      Spliced parent.relation (reference parent.asInput) s.fragment rendered.sql := by
  rcases hkept with ⟨stored, hstored, hfragment⟩
  by_cases hsame : reference parent.asInput = parent.relation
  · rw [hsame]
    exact ⟨stored, hstored, [s.fragment], List.cons_ne_nil _ _, rfl, hfragment.symm⟩
  have hs := Text.trim_ne_empty_of_isSolid hrelation
  have ht := Text.trim_ne_empty_of_isSolid hreference
  have hrendering : SameRendering parent.relation (reference parent.asInput)
      (s.renderFrom parent.relation parent.name)
      (s.renderFrom (reference parent.asInput) parent.name) := by
    cases h with
    | unchanged h => exact absurd h hsame
    | library hlibrary hpartners =>
        exact sameRendering_of_fromLibrary hlibrary hbound hpartners hs ht
          fun entry _ => hapart hsame entry.2
    | applied sql nodes hcreate hsql hparse hprints hasks =>
        exact sameRendering_of_applied hcreate hsql hparse hprints hasks hs ht
  rcases hrendering with ⟨error, hleft, -⟩ | ⟨segments, output, hleft, hright⟩
  · rw [hstored] at hleft
    cases hleft
  · rw [hstored] at hleft
    cases hleft
    rcases Text.exists_trim_join segments with ⟨trimmed, hne, htrim⟩
    refine ⟨_, hright, trimmed, hne, ?_, htrim _ hreference⟩
    rw [hfragment]
    exact htrim _ hrelation

end Rendering

/-!
## Chains
-/

/-- The reference to what the next step reads from can be told from the relations of datasets, and
no white space is lost with it or with the relation at the ends of a text. -/
structure Refers (reference : StepInput → String) (parent : Chain) : Prop where
  relation_solid : Text.isSolid parent.relation = true
  reference_solid : Text.isSolid (reference parent.asInput) = true
  apart : reference parent.asInput ≠ parent.relation →
    ∀ dataset : Dataset, dataset.relation ≠ reference parent.asInput

structure WrittenFrom (reference : StepInput → String) (fragment step : StepFragment) : Prop where
  name_eq : step.name = fragment.name
  trimmed : Text.trimEnd step.sql.toList = step.sql.toList
  spliced : Spliced fragment.input.relation (reference fragment.input) fragment.sql step.sql

theorem trimEnd_of_render {template : Template} {context : Template.Context}
    {rendered : Rendered} (h : render template context = .ok rendered) :
    Text.trimEnd rendered.sql.toList = rendered.sql.toList := by
  rcases render_eq_ok_iff.mp h with ⟨text, after, -, -, rfl⟩
  simp [Text.trim, Text.trimChars, Text.trimEnd, List.dropWhile_idempotent]

theorem Reachable.exists_referred {reference : StepInput → String} {chain : Chain}
    (hreference : ∀ input, reference input ≠ "") (h : Reachable chain)
    (hrefers : EachStep (fun parent _ => Refers reference parent) chain)
    (hprints : EachStep (PrintsInput reference) chain) :
    ∃ steps, chain.renderSteps reference = .ok steps ∧
      List.Forall₂ (WrittenFrom reference) chain.fragments steps := by
  induction chain with
  | root dataset => exact ⟨[], rfl, .nil⟩
  | step parent name s ih =>
      rcases ih h.parent hrefers.left hprints.left with ⟨before, hbefore, hsteps⟩
      obtain ⟨hrelation, hsolid, hapart⟩ := hrefers.right
      rcases hprints.right.exists_rendered h.bound.right h.kept.right hrelation hsolid hapart with
        ⟨rendered, hrender, hspliced⟩
      refine ⟨before ++ [⟨name, s.transform.name, rendered.sql, parent.asInput, s.output⟩], ?_,
        List.rel_append hsteps (.cons ?_ .nil)⟩
      · unfold renderSteps
        rw [hbefore]
        simp only [referredSource_of_ne_empty (hreference _), label_asInput, hrender]
      · refine ⟨rfl, trimEnd_of_render hrender, ?_⟩
        rw [relation_asInput]
        exact hspliced

end Chain
end TransformChain
