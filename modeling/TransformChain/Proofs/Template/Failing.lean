import TransformChain.Proofs.Template.Points

/-!
# Failures on the way

What fails on the way through a template makes everything fail that led to it, up to the rendering
as a whole.  The one exception is a test for being defined whose operand is no variable: it asks
whether the operand can be evaluated, and takes a failure of any kind for an answer.
-/

namespace TransformChain
namespace Template
namespace Action

def Fails (a : Action α) (before : State) (error : Error) : Prop :=
  (a before).1 = .failed error

section Rules

variable {before between : State} {error : Error}

theorem Fails.bind {a : Action α} {f : α → Action β} (h : Fails a before error) :
    Fails (a >>= f) before error := by
  change (andThen a f before).1 = .failed error
  unfold Fails at h
  unfold andThen
  rcases hrun : a before with ⟨outcome, next⟩
  rw [hrun] at h
  cases h
  rfl

theorem Yields.bind_fails {a : Action α} {f : α → Action β} {value : α}
    (hyields : Yields a before value between) (h : Fails (f value) between error) :
    Fails (a >>= f) before error := by
  unfold Fails
  rw [hyields.bind_eq]
  exact h

theorem Yields.not_fails {a : Action α} {value : α} {after : State}
    (h : Yields a before value after) : ¬Fails a before error := by
  intro hfails
  unfold Fails at hfails
  rw [h] at hfails
  cases hfails

theorem Fails.inFrame {frame : Frame} {a : Action α}
    (h : Fails a { before with frames := frame :: before.frames } error) :
    Fails (Action.inFrame frame a) before error := h

theorem Fails.isolated {frame : Frame} {a : Action α}
    (h : Fails a { before with frames := [frame, before.frames.getLast?.getD []] } error) :
    Fails (Action.isolated frame a) before error := h

theorem Fails.nested {template : String} {a : Action α} (hdepth : before.depth < depthLimit)
    (h : Fails a { before with depth := before.depth + 1 } error) :
    Fails (Action.nested template a) before error := by
  unfold Fails Action.nested
  rw [if_neg (Nat.not_le.mpr hdepth)]
  exact h

/-- To a test for success a failure is an answer. -/
theorem Fails.succeeds {a : Action α} (h : Fails a before error) :
    ∃ after, Yields (Action.succeeds a) before false after := by
  unfold Fails at h
  unfold Yields Action.succeeds
  rcases hrun : a before with ⟨outcome, next⟩
  rw [hrun] at h
  cases h
  exact ⟨next, rfl⟩

end Rules

end Action

open Template.Action

/-!
## Failing points
-/

def Work.Fails (scene : Scene) (calls : Calls) (state : State) (error : Error) : Work → Prop
  | .expr e => Action.Fails (eval scene calls e) state error
  | .exprs es => Action.Fails (evalAll scene calls es) state error
  | .entries es => Action.Fails (evalEntries scene calls es) state error
  | .named es => Action.Fails (evalNamed scene calls es) state error
  | .call name request => Action.Fails (callByName scene calls name request) state error
  | .params ps args given frame =>
      Action.Fails (bindParameters calls ps args given frame) state error
  | .node n => Action.Fails (exec scene calls n) state error
  | .nodes ns => Action.Fails (execAll scene calls ns) state error
  | .branches bs otherwise =>
      Action.Fails (execBranches scene calls bs (execAll scene calls otherwise)) state error
  | .rounds target body length index items =>
      Action.Fails (runLoop scene target (execAll scene calls body) length index items) state error

def Point.Fails (scene : Scene) (p : Point) (error : Error) : Prop :=
  p.work.Fails scene (.within scene p.budget) p.state error

def Point.TestsDefined : Point → Prop
  | ⟨_, .expr (.test operand name _), _⟩ =>
      isDefinedTest name = true ∧ ∀ subject, operand ≠ .var subject
  | _ => False

section Calls

variable {scene : Scene} {calls : Calls} {target : MacroDef} {call : Function.Call}
variable {state between : State} {error : Error} {name : String}

theorem callMacro_fails_of_params (hcount : call.positional.length ≤ target.params.length)
    (h : Fails (bindParameters calls target.params call.positional (Keyed.ofPairs call.named) [])
      state error) :
    Fails (callMacro scene calls target call) state error := by
  unfold callMacro
  rw [if_neg (Nat.not_lt.mpr hcount)]
  exact h.bind

theorem callMacro_fails_of_body {frame : Frame}
    (hcount : call.positional.length ≤ target.params.length)
    (hbound : Yields (bindParameters calls target.params call.positional
      (Keyed.ofPairs call.named) []) state (frame, []) between)
    (hdepth : between.depth < depthLimit)
    (h : Fails (calls.body target.body)
      ⟨[frame, between.frames.getLast?.getD []], between.declared, between.depth + 1⟩ error) :
    Fails (callMacro scene calls target call) state error := by
  unfold callMacro
  rw [if_neg (Nat.not_lt.mpr hcount)]
  apply hbound.bind_fails
  apply Fails.bind
  apply Fails.nested hdepth
  exact Fails.isolated h

theorem renderText_fails {text : Value} {nodes : List Node}
    (hfirst : Function.first scene "render" call = .ok text)
    (hparse : Body.parse scene.template.name text.display = .ok ⟨nodes, []⟩)
    (hdepth : state.depth < depthLimit)
    (h : Fails (calls.body nodes) { state with depth := state.depth + 1 } error) :
    Fails (Function.renderText scene calls.body call) state error := by
  unfold Function.renderText
  apply Yields.bind_fails (yields_ofExcept.mpr ⟨hfirst, rfl⟩)
  apply Yields.bind_fails (yields_ofExcept.mpr ⟨hparse, rfl⟩)
  exact (Fails.nested hdepth h).bind

theorem test_of_operand_fails {operand : Expr} {negated : Bool}
    (hname : isDefinedTest name = true) (hoperand : ∀ subject, operand ≠ .var subject)
    (h : Fails (eval scene calls operand) state error) :
    ∃ after, Yields (eval scene calls (.test operand name negated)) state
      (.bool ((name == "undefined") != negated)) after := by
  have hanswer : (false == (name == "defined")) = (name == "undefined") := by
    simp only [isDefinedTest, Bool.or_eq_true, beq_iff_eq] at hname
    rcases hname with rfl | rfl <;> decide
  rcases h.succeeds with ⟨after, hsucceeds⟩
  refine ⟨after, ?_⟩
  rw [eval_test, testOutcome_defined hoperand hname, ← hanswer]
  simp only [yields_bind, yields_pure]
  exact ⟨_, after, ⟨false, after, hsucceeds, rfl, rfl⟩, rfl, rfl⟩

end Calls

/-!
## From a part to the whole
-/

section Parts

variable {scene : Scene} {p q : Point} {error : Error}

/-- One case for each way in which a point leads to another: what is evaluated before the part has
succeeded, so the failure of the part is the first one. -/
theorem Part.fails (hpart : Part scene p q) (htest : ¬p.TestsDefined) (h : q.Fails scene error) :
    p.Fails scene error := by
  unfold Point.Fails at h ⊢
  cases hpart with
  | list | dict | attr | indexBase | not | neg =>
      simp only [Work.Fails, eval] at h ⊢
      exact h.bind
  | indexKey hbase =>
      simp only [Work.Fails, eval] at h ⊢
      exact hbase.bind_fails h.bind
  | callArgs =>
      simp only [Work.Fails, eval_call] at h ⊢
      exact h.bind
  | callNamed hargs =>
      simp only [Work.Fails, eval_call] at h ⊢
      exact hargs.bind_fails h.bind
  | callReceiver hargs hkeywords =>
      simp only [Work.Fails, eval] at h ⊢
      exact hargs.bind_fails (hkeywords.bind_fails h.bind)
  | callFunction hargs hkeywords =>
      simp only [Work.Fails, eval] at h ⊢
      exact hargs.bind_fails (hkeywords.bind_fails h)
  | filterOperand hoperand =>
      simp only [Work.Fails] at h ⊢
      rw [eval_filter, filterOperand_of_ne_var hoperand]
      exact h.bind
  | filterArgs hoperand =>
      simp only [Work.Fails] at h ⊢
      rw [eval_filter]
      exact hoperand.bind_fails h.bind
  | @testOperand operand _ name _ _ hoperand =>
      have hname : isDefinedTest name = false := by
        cases hdefined : isDefinedTest name with
        | false => rfl
        | true => exact absurd ⟨hdefined, hoperand⟩ htest
      simp only [Work.Fails] at h ⊢
      rw [eval_test, testOutcome_of_ne_var hoperand hname]
      exact h.bind.bind
  | binaryLeft =>
      simp only [Work.Fails] at h ⊢
      rw [eval_binary]
      exact h.bind
  | binaryRight hleft hgoes =>
      simp only [Work.Fails] at h ⊢
      rw [eval_binary]
      apply hleft.bind_fails
      unfold binaryRest
      rw [if_pos hgoes]
      exact h.bind
  | condition =>
      simp only [Work.Fails, eval_cond] at h ⊢
      exact h.bind
  | condYes hcondition hholds =>
      simp only [Work.Fails, eval_cond] at h ⊢
      apply hcondition.bind_fails
      rw [condRest_of_holds hholds]
      exact h
  | condNo hcondition hholds =>
      simp only [Work.Fails, eval] at h ⊢
      apply hcondition.bind_fails
      rw [if_neg (by simp [hholds])]
      exact h
  | exprsFirst =>
      simp only [Work.Fails, evalAll] at h ⊢
      exact h.bind
  | exprsRest hfirst =>
      simp only [Work.Fails, evalAll] at h ⊢
      exact hfirst.bind_fails h.bind
  | entriesKey =>
      simp only [Work.Fails, evalEntries] at h ⊢
      exact h.bind
  | entriesValue hkey =>
      simp only [Work.Fails, evalEntries] at h ⊢
      exact hkey.bind_fails h.bind
  | entriesRest hkey hvalue =>
      simp only [Work.Fails, evalEntries] at h ⊢
      exact hkey.bind_fails (hvalue.bind_fails h.bind)
  | namedFirst =>
      simp only [Work.Fails, evalNamed] at h ⊢
      exact h.bind
  | namedRest hfirst =>
      simp only [Work.Fails, evalNamed] at h ⊢
      exact hfirst.bind_fails h.bind
  | callParams hfind hcount =>
      simp only [Work.Fails] at h ⊢
      rw [callByName_of_found hfind]
      exact callMacro_fails_of_params hcount h
  | callBody hfind hcount hbound hdepth =>
      simp only [Work.Fails] at h ⊢
      rw [callByName_of_found hfind]
      exact callMacro_fails_of_body hcount hbound hdepth h
  | callText hfind hfirst hparse hdepth =>
      simp only [Work.Fails] at h ⊢
      unfold callByName
      rw [hfind]
      exact renderText_fails hfirst hparse hdepth h
  | paramsGiven =>
      simp only [Work.Fails, bindParameters] at h ⊢
      exact h
  | paramsNamed hnamed =>
      simp only [Work.Fails, bindParameters, hnamed] at h ⊢
      exact h
  | paramsDefault hnamed =>
      simp only [Work.Fails, bindParameters, hnamed] at h ⊢
      exact Fails.bind h
  | paramsDefaulted hnamed hvalue =>
      simp only [Work.Fails, bindParameters, hnamed] at h ⊢
      exact hvalue.bind_fails h
  | paramsNull hnamed =>
      simp only [Work.Fails, bindParameters, hnamed] at h ⊢
      exact h
  | output | branch | loopItems | assign | run =>
      simp only [Work.Fails, exec] at h ⊢
      first | exact h.bind | exact h
  | loopEmpty hiterable hitems =>
      simp only [Work.Fails, exec] at h ⊢
      apply hiterable.bind_fails
      apply (yields_operated hitems).bind_fails
      exact h
  | loopRounds hiterable hitems hne =>
      simp only [Work.Fails, exec] at h ⊢
      apply hiterable.bind_fails
      apply (yields_operated hitems).bind_fails
      rw [if_neg (by simpa using hne)]
      exact h
  | nodesFirst =>
      simp only [Work.Fails, execAll] at h ⊢
      exact h.bind
  | nodesRest hfirst =>
      simp only [Work.Fails, execAll] at h ⊢
      exact hfirst.bind_fails h.bind
  | otherwise =>
      simp only [Work.Fails, execBranches] at h ⊢
      exact h
  | branchCondition =>
      simp only [Work.Fails, execBranches] at h ⊢
      exact h.bind
  | branchTaken hcondition hholds =>
      simp only [Work.Fails, execBranches] at h ⊢
      apply hcondition.bind_fails
      rw [if_pos hholds]
      exact h
  | branchSkipped hcondition hholds =>
      simp only [Work.Fails, execBranches] at h ⊢
      apply hcondition.bind_fails
      rw [if_neg (by simp [hholds])]
      exact h
  | round hbind =>
      simp only [Work.Fails, runLoop] at h ⊢
      apply (yields_operated hbind).bind_fails
      exact (Fails.inFrame h).bind
  | roundsRest hbind hround =>
      simp only [Work.Fails, runLoop] at h ⊢
      apply (yields_operated hbind).bind_fails
      exact hround.bind_fails h.bind

/-- A test for being defined that is reached from the first point takes a failure on the way to the
second one for an answer. -/
def TakenForAnswer (scene : Scene) (p q : Point) (error : Error) : Prop :=
  ∃ budget operand name negated state after,
    Reaches scene p ⟨budget, .expr (.test operand name negated), state⟩ ∧
    isDefinedTest name = true ∧ (∀ subject, operand ≠ .var subject) ∧
    Reaches scene ⟨budget, .expr operand, state⟩ q ∧
    Fails (eval scene (.within scene budget) operand) state error ∧
    Yields (eval scene (.within scene budget) (.test operand name negated)) state
      (.bool ((name == "undefined") != negated)) after

theorem TakenForAnswer.of_part {r : Point} (hpart : Part scene p r)
    (h : TakenForAnswer scene r q error) : TakenForAnswer scene p q error := by
  rcases h with ⟨budget, operand, name, negated, state, after, hreaches, h⟩
  exact ⟨budget, operand, name, negated, state, after, .head hpart hreaches, h⟩

theorem TakenForAnswer.of_operand {r : Point} (htest : p.TestsDefined) (hpart : Part scene p r)
    (hreaches : Reaches scene r q) (h : r.Fails scene error) : TakenForAnswer scene p q error := by
  cases hpart with
  | testOperand hoperand =>
      rcases test_of_operand_fails htest.left hoperand h with ⟨after, hyields⟩
      exact ⟨_, _, _, _, _, after, .refl, htest.left, hoperand, hreaches, h, hyields⟩
  | _ => exact htest.elim

/-- By induction on the way, from the failing point back: each step hands the failure on, except at
a test. -/
theorem Reaches.fails (hreaches : Reaches scene p q) (h : q.Fails scene error) :
    p.Fails scene error ∨ TakenForAnswer scene p q error := by
  induction hreaches using Relation.ReflTransGen.head_induction_on with
  | refl => exact Or.inl h
  | @head p r hpart hrest ih =>
      rcases ih with hfails | htaken
      · by_cases htest : p.TestsDefined
        · exact Or.inr (.of_operand htest hpart hrest hfails)
        · exact Or.inl (hpart.fails htest hfails)
      · exact Or.inr (htaken.of_part hpart)

end Parts

/-!
## Renderings
-/

theorem render_of_fails {template : Template} {context : Context} {error : Error}
    (h : (Scene.point ⟨template, context⟩ callBudget).Fails ⟨template, context⟩ error) :
    render template context = .error error := by
  change (Scene.run ⟨template, context⟩ callBudget).1 = .failed error at h
  unfold render
  rcases hrun : Scene.run ⟨template, context⟩ callBudget with ⟨outcome, after⟩
  rw [hrun] at h
  cases h
  rfl

/-- Whatever fails while a template is rendered, the rendering fails with that error, unless the
failure is the answer to a test for being defined whose operand is no variable.  So where a
rendering succeeds, nothing has failed on the way but inside such operands. -/
theorem failure_ends_rendering (template : Template) (context : Context) {q : Point}
    {error : Error}
    (hreaches : Reaches ⟨template, context⟩ (Scene.point ⟨template, context⟩ callBudget) q)
    (hfails : q.Fails ⟨template, context⟩ error) :
    render template context = .error error ∨
      TakenForAnswer ⟨template, context⟩ (Scene.point ⟨template, context⟩ callBudget) q error := by
  rcases hreaches.fails hfails with hwhole | htaken
  · exact Or.inl (render_of_fails hwhole)
  · exact Or.inr htaken

def aborting : Expr :=
  .call (.var "raise_exception") [.lit (.str "no")] []

def bareContext : Context :=
  ⟨"T", "T", none, [], []⟩

def abortingWithDefault : Template :=
  ⟨"t", "", [.text "a", .output (.filter aborting "default" [.lit (.str "fine")])], []⟩

/-- A value that stands for null does not stand for a failure. -/
theorem abortingWithDefault_fails :
    ∃ q, Reaches ⟨abortingWithDefault, bareContext⟩
        (Scene.point ⟨abortingWithDefault, bareContext⟩ callBudget) q ∧
      q.Fails ⟨abortingWithDefault, bareContext⟩ (.templateAborted "t" "no") ∧
      (render abortingWithDefault bareContext = .error (.templateAborted "t" "no") ∨
        TakenForAnswer ⟨abortingWithDefault, bareContext⟩
          (Scene.point ⟨abortingWithDefault, bareContext⟩ callBudget) q
          (.templateAborted "t" "no")) :=
  have hfirst : Yields (exec ⟨abortingWithDefault, bareContext⟩
      (.within ⟨abortingWithDefault, bareContext⟩ callBudget) (.text "a"))
      (Scene.start ⟨abortingWithDefault, bareContext⟩) "a"
      (Scene.start ⟨abortingWithDefault, bareContext⟩) := rfl
  have hreaches : Reaches ⟨abortingWithDefault, bareContext⟩
      (Scene.point ⟨abortingWithDefault, bareContext⟩ callBudget)
      ⟨callBudget, .expr aborting, Scene.start ⟨abortingWithDefault, bareContext⟩⟩ :=
    .head (.nodesRest hfirst) <| .head .nodesFirst <| .head .output <|
      .single (.filterOperand (fun _ => nofun))
  ⟨_, hreaches, rfl, failure_ends_rendering abortingWithDefault bareContext hreaches rfl⟩

def abortingTested : Template :=
  ⟨"t", "", [.output (.cond (.test aborting "defined" true) (.lit (.str "fine")) none)], []⟩

/-- The call aborts, and the rendering succeeds. -/
theorem tested_abort_is_lost :
    (∃ q, Reaches ⟨abortingTested, bareContext⟩
        (Scene.point ⟨abortingTested, bareContext⟩ callBudget) q ∧
      q.Fails ⟨abortingTested, bareContext⟩ (.templateAborted "t" "no")) ∧
    (render abortingTested bareContext).toOption = some ⟨"fine", none⟩ := by
  constructor
  · refine ⟨⟨callBudget, .expr aborting, Scene.start ⟨abortingTested, bareContext⟩⟩, ?_, rfl⟩
    exact .head .nodesFirst <| .head .output <| .head .condition <|
      .single (.testOperand (fun _ => nofun))
  · decide +kernel

end Template
end TransformChain
