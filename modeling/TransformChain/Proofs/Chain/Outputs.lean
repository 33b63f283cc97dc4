import TransformChain.Proofs.Chain.Reachable
import TransformChain.Proofs.Template.Declaring

/-!
# Declared outputs

Whatever happens on the way through a template, columns are only declared behind those that are
declared already, and never twice.  What a rendering reports is all of them, and what a step
declares is what its rendering reports.
-/

namespace TransformChain
namespace Template

/-- What holds of the declared columns where the work of a point begins and where it ends, also if
it fails there. -/
structure Accumulates (scene : Scene) (budget : Nat) (q : Point) : Prop where
  distinct_before : q.state.declared.names.Nodup
  kept : q.state.declared <+: (q.after scene).declared
  distinct_after : (q.after scene).declared.names.Nodup
  reported : (q.after scene).declared <+: (scene.run budget).2.declared

theorem accumulates {scene : Scene} {budget : Nat} {q : Point}
    (hreaches : Reaches scene (scene.point budget) q) : Accumulates scene budget q := by
  have hbefore := hreaches.before_lasts enduring_distinct List.nodup_nil
  constructor
  · exact hbefore
  · exact q.after_lasts enduring_growing
  · exact q.after_lasts enduring_distinct hbefore
  · exact hreaches.rest_lasts enduring_growing

theorem render_output {template : Template} {context : Context} {rendered : Rendered}
    (h : render template context = .ok rendered) :
    rendered.output = declaredOutput (Scene.run ⟨template, context⟩ callBudget).2.declared := by
  obtain ⟨text, after, hrun, -, rfl⟩ := render_eq_ok_iff.mp h
  rw [hrun]

end Template

open Template Template.Action

namespace Chain

theorem extend_output {workshop : Workshop} {chain next : Chain} {transformName : String}
    {args : Keyed Argument} {options : StepOptions} {before after : Resolver}
    (hoptions : options.outputColumns = none)
    (h : chain.extend workshop transformName args options before = (.ok next, after)) :
    ∃ name step rendered, next = .step chain name step ∧
      step.renderFrom chain.relation chain.name = .ok rendered ∧
      step.output = rendered.output := by
  obtain ⟨e⟩ := extend_eq_ok_iff.mp h
  refine ⟨e.name, _, e.rendered, e.next_eq, e.render_eq, ?_⟩
  rw [hoptions]
  rfl

/-- Evaluation keeps the declared columns and puts new ones behind them, whose names are new, no
matter whether it succeeds.  So at every point of a rendering the columns declared by then are the
first of those declared in the end, no name among them occurs twice, and what a rendering reports,
and with it what a step declares whose columns nobody stated, is nothing or such a schema. -/
theorem declared_columns_accumulate :
    (∀ (scene : Scene) (budget : Nat) (x : State),
      (∀ e, x.declared <+: (eval scene (.within scene budget) e x).2.declared ∧
        (x.declared.names.Nodup →
          (eval scene (.within scene budget) e x).2.declared.names.Nodup)) ∧
      (∀ ns, x.declared <+: (execAll scene (.within scene budget) ns x).2.declared ∧
        (x.declared.names.Nodup →
          (execAll scene (.within scene budget) ns x).2.declared.names.Nodup))) ∧
    (∀ (scene : Scene) (budget : Nat) (q : Point),
      Reaches scene (scene.point budget) q → Accumulates scene budget q) ∧
    (∀ (template : Template) (context : Context) (rendered : Rendered),
      render template context = .ok rendered →
        rendered.output = declaredOutput (Scene.run ⟨template, context⟩ callBudget).2.declared ∧
        ∀ columns, rendered.output = some columns → columns.IsUsable) ∧
    (∀ (workshop : Workshop) (chain next : Chain) (transformName : String)
        (args : Keyed Argument) (options : StepOptions) (before after : Resolver),
      options.outputColumns = none →
      chain.extend workshop transformName args options before = (.ok next, after) →
        ∃ name step rendered, next = .step chain name step ∧
          step.renderFrom chain.relation chain.name = .ok rendered ∧
          step.output = rendered.output ∧
          ∀ columns, step.output = some columns → columns.IsUsable) := by
  refine ⟨?evaluation, ?points, ?renderings, ?steps⟩
  case evaluation =>
    intro scene budget x
    constructor
    · exact fun e => ⟨enduring_growing.eval scene budget e x,
        enduring_distinct.eval scene budget e x⟩
    · exact fun ns => ⟨enduring_growing.execAll scene budget ns x,
        enduring_distinct.execAll scene budget ns x⟩
  case points => exact fun _ _ _ hreaches => accumulates hreaches
  case renderings =>
    exact fun _ _ _ h => ⟨render_output h, fun _ houtput => render_output_isUsable h houtput⟩
  case steps =>
    intro workshop chain next transformName args options before after hoptions h
    obtain ⟨name, step, rendered, hnext, hrender, houtput⟩ := extend_output hoptions h
    refine ⟨name, step, rendered, hnext, hrender, houtput, ?_⟩
    intro columns hcolumns
    exact render_output_isUsable hrender (houtput ▸ hcolumns)

def declaring (name : String) : Expr :=
  .call (.var "output") [.lit (.str name)] []

def failingOperand : Expr :=
  .list [declaring "B", .call (.var "raise_exception") [.lit (.str "no")] []]

/-- A template that declares a column, and tests whether an operand is defined that declares another
one and fails. -/
def declaringScene : Scene :=
  ⟨⟨"t", "", [.run (declaring "A"),
      .output (.cond (.test failingOperand "defined" true) (.lit (.str "fine")) none)], []⟩,
    ⟨"T", "T", none, [], []⟩⟩

def firstDeclared : State :=
  { declaringScene.start with declared := [⟨"A", none⟩] }

theorem failing_operand_accumulates :
    Accumulates declaringScene callBudget ⟨callBudget, .expr failingOperand, firstDeclared⟩ ∧
    (Point.after declaringScene ⟨callBudget, .expr failingOperand, firstDeclared⟩).declared =
      [⟨"A", none⟩, ⟨"B", none⟩] ∧
    render declaringScene.template declaringScene.context =
      .ok ⟨"fine", some [⟨"A", none⟩, ⟨"B", none⟩]⟩ ∧
    Schema.IsUsable [⟨"A", none⟩, ⟨"B", none⟩] := by
  have hfirst : Yields (exec declaringScene (.within declaringScene callBudget)
      (.run (declaring "A"))) declaringScene.start "" firstDeclared := rfl
  have hreaches : Reaches declaringScene (declaringScene.point callBudget)
      ⟨callBudget, .expr failingOperand, firstDeclared⟩ :=
    .head (.nodesRest hfirst) <| .head .nodesFirst <| .head .output <| .head .condition <|
      .single (.testOperand (fun _ => nofun))
  have hrender : render declaringScene.template declaringScene.context =
      .ok ⟨"fine", some [⟨"A", none⟩, ⟨"B", none⟩]⟩ := eq_ok_of_toOption (by decide +kernel)
  refine ⟨declared_columns_accumulate.right.left _ _ _ hreaches, rfl, hrender, ?_⟩
  exact (declared_columns_accumulate.right.right.left _ _ _ hrender).right _ rfl

end Chain
end TransformChain
