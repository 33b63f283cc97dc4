import Mathlib.Data.List.Nodup
import TransformChain.Proofs.Template.Steady
import TransformChain.Proofs.Template.Yields

/-!
# Declared columns

Whatever a template does, it declares its output columns under names that differ.  So the output of
a rendering, if it has one, is not empty and has no column twice.
-/

namespace TransformChain

namespace Schema

structure IsUsable (schema : Schema) : Prop where
  nonempty : schema ≠ []
  distinct : schema.names.Nodup

theorem has_eq_false_iff {schema : Schema} {name : String} :
    schema.has name = false ↔ name ∉ schema.names := by
  simp [has, find?, names]

theorem has_iff {schema : Schema} {name : String} :
    schema.has name = true ↔ name ∈ schema.names := by
  rw [← Bool.not_eq_false, has_eq_false_iff, not_not]

end Schema

namespace Template

open Template.Action

/-- What holds of the declared columns where none is added, where one with a new name is, and along
one addition after the other, holds along every evaluation. -/
theorem enduring_declared {R : Schema → Schema → Prop} (hrefl : ∀ schema, R schema schema)
    (htrans : ∀ {first second third}, R first second → R second third → R first third)
    (hnew : ∀ (schema : Schema) (column : Column), schema.has column.name = false →
      R schema (schema ++ [column])) :
    Enduring fun before after => R before.declared after.declared where
  refl x := hrefl x.declared
  trans := htrans
  assign name value x := by
    unfold Action.assign
    cases x.frames <;> exact hrefl x.declared
  declare template column x := by
    unfold Action.declare
    cases hhas : x.declared.has column.name with
    | true => exact hrefl x.declared
    | false => exact hnew x.declared column hhas
  inFrame frame _ ha x := ha { x with frames := frame :: x.frames }
  isolated frame _ ha x := ha { x with frames := [frame, x.frames.getLast?.getD []] }
  nested template _ ha x := by
    unfold Action.nested
    by_cases hdeep : depthLimit ≤ x.depth
    · rw [if_pos hdeep]
      exact hrefl x.declared
    · rw [if_neg hdeep]
      exact ha { x with depth := x.depth + 1 }

theorem enduring_growing :
    Enduring fun before after => before.declared <+: after.declared :=
  enduring_declared List.prefix_refl List.IsPrefix.trans fun _ _ _ => List.prefix_append _ _

def StayDistinct (before after : Schema) : Prop :=
  before.names.Nodup → after.names.Nodup

/-- Declared columns whose names differ stay so: a name that is declared already is refused. -/
theorem enduring_distinct :
    Enduring fun before after => StayDistinct before.declared after.declared := by
  apply enduring_declared
  · exact fun _ => id
  · exact fun hfirst hsecond => hsecond ∘ hfirst
  · intro schema column hhas hdistinct
    have hnotin := Schema.has_eq_false_iff.mp hhas
    unfold Schema.names at hnotin hdistinct ⊢
    rw [List.map_append, List.map_singleton, ← List.concat_eq_append]
    exact hdistinct.concat hnotin

/-!
## On the way
-/

theorem succeeds_after (a : Action α) (x : State) : (Action.succeeds a x).2 = (a x).2 := by
  unfold Action.succeeds
  rcases a x with ⟨outcome, next⟩
  cases outcome <;> rfl

def Work.after (scene : Scene) (calls : Calls) (state : State) : Work → State
  | .expr e => (eval scene calls e state).2
  | .exprs es => (evalAll scene calls es state).2
  | .entries es => (evalEntries scene calls es state).2
  | .named es => (evalNamed scene calls es state).2
  | .call name request => (callByName scene calls name request state).2
  | .params ps args given frame => (bindParameters calls ps args given frame state).2
  | .node n => (exec scene calls n state).2
  | .nodes ns => (execAll scene calls ns state).2
  | .branches bs otherwise =>
      (execBranches scene calls bs (execAll scene calls otherwise) state).2
  | .rounds target body length index items =>
      (runLoop scene target (execAll scene calls body) length index items state).2

def Point.after (scene : Scene) (p : Point) : State :=
  p.work.after scene (.within scene p.budget) p.state

section Points

variable {R : Schema → Schema → Prop} (h : Enduring fun x y => R x.declared y.declared)
variable {scene : Scene} {p q : Point}

include h

theorem Point.after_lasts (p : Point) : R p.state.declared (p.after scene).declared := by
  rcases p with ⟨budget, work, x⟩
  cases work with
  | expr e => exact h.eval scene budget e x
  | exprs es => exact h.evalAll scene budget es x
  | entries es => exact h.evalEntries scene budget es x
  | named es => exact h.evalNamed scene budget es x
  | call name request => exact h.callByName (h.within scene budget) name request x
  | params ps args given frame => exact h.bindParameters scene budget ps args given frame x
  | node n => exact h.exec scene budget n x
  | nodes ns => exact h.execAll scene budget ns x
  | branches bs otherwise => exact h.execBranches scene budget bs otherwise x
  | rounds target body length index items =>
      exact h.runLoop scene budget target body length index items x

theorem Part.before_lasts (hpart : Part scene p q) : R p.state.declared q.state.declared := by
  cases hpart with
  | indexKey hvalue | binaryRight hvalue _ | condYes hvalue _ | condNo hvalue _
  | exprsRest hvalue | entriesValue hvalue | namedRest hvalue | loopEmpty hvalue _
  | loopRounds hvalue _ _ | branchTaken hvalue _ | branchSkipped hvalue _ =>
      exact (h.eval scene _ _).yields hvalue
  | entriesRest hkey hvalue =>
      exact h.trans ((h.eval scene _ _).yields hkey) ((h.eval scene _ _).yields hvalue)
  | callNamed hvalues => exact (h.evalAll scene _ _).yields hvalues
  | callReceiver hvalues hpairs | callFunction hvalues hpairs =>
      exact h.trans ((h.evalAll scene _ _).yields hvalues) ((h.evalNamed scene _ _).yields hpairs)
  | filterArgs hvalue => exact (h.filterOperand scene _ _ _).yields hvalue
  | callBody _ _ hbound _ =>
      have hlasts := (h.bindParameters scene _ _ _ _ _).yields hbound
      exact hlasts
  | paramsDefaulted _ hvalue => exact ((h.within scene _).value _).yields hvalue
  | nodesRest hnode => exact (h.exec scene _ _).yields hnode
  | roundsRest _ hround => exact (h.inFrame _ (h.execAll scene _ _)).yields hround
  | _ => exact h.refl _

theorem Reaches.before_lasts (hreaches : Reaches scene p q) :
    R p.state.declared q.state.declared := by
  induction hreaches with
  | refl => exact h.refl p.state
  | tail _ hpart ih => exact h.trans ih (hpart.before_lasts h)

theorem inFrame_lasts {frame : Frame} {a : Action String} {f : String → Action β}
    (hf : ∀ value, Steady (fun x y => R x.declared y.declared) (f value)) (x : State) :
    R (a { x with frames := frame :: x.frames }).2.declared
      ((Action.inFrame frame a >>= f) x).2.declared :=
  h.after_bind (a := Action.inFrame frame a) hf x

theorem nested_lasts {template : String} {a : Action α} {f : α → Action β} {x : State}
    (hdepth : x.depth < depthLimit)
    (hf : ∀ value, Steady (fun x y => R x.declared y.declared) (f value)) :
    R (a { x with depth := x.depth + 1 }).2.declared
      ((Action.nested template a >>= f) x).2.declared := by
  have hrest := h.after_bind (a := Action.nested template a) hf x
  have hnested : (Action.nested template a x).2.declared =
      (a { x with depth := x.depth + 1 }).2.declared := by
    unfold Action.nested
    rw [if_neg (Nat.not_le.mpr hdepth)]
  rw [hnested] at hrest
  exact hrest

/-- What is evaluated after a part goes on from where the part ends: one case for each way in which
a point leads to another. -/
theorem Part.rest_lasts (hpart : Part scene p q) :
    R (q.after scene).declared (p.after scene).declared := by
  unfold Point.after
  cases hpart with
  | list | dict | not =>
      simp only [Work.after, eval]
      exact h.after_bind (fun _ => h.closed.pure _) _
  | attr | neg =>
      simp only [Work.after, eval]
      exact h.after_bind (fun _ => h.closed.operate scene _) _
  | indexBase =>
      simp only [Work.after, eval]
      exact h.after_bind (fun _ => h.bind (h.eval scene _ _) fun _ => h.closed.operate scene _) _
  | indexKey hbase =>
      simp only [Work.after, eval]
      rw [hbase.bind_eq]
      exact h.after_bind (fun _ => h.closed.operate scene _) _
  | callArgs =>
      simp only [Work.after, eval_call]
      exact h.after_bind (fun _ => h.bind (h.evalNamed scene _ _) fun _ =>
        h.callRest scene _ _ _ _) _
  | callNamed hargs =>
      simp only [Work.after, eval_call]
      rw [hargs.bind_eq]
      exact h.after_bind (fun _ => h.callRest scene _ _ _ _) _
  | callReceiver hargs hkeywords =>
      simp only [Work.after, eval_call, callRest]
      rw [hargs.bind_eq, hkeywords.bind_eq]
      exact h.after_bind (fun _ => h.closed.operate scene _) _
  | callFunction hargs hkeywords =>
      simp only [Work.after, eval_call, callRest]
      rw [hargs.bind_eq, hkeywords.bind_eq]
      exact h.refl _
  | filterOperand hoperand =>
      simp only [Work.after]
      rw [eval_filter, filterOperand_of_ne_var hoperand]
      exact h.after_bind (fun _ => h.bind (h.evalAll scene _ _) fun _ =>
        h.closed.operate scene _) _
  | filterArgs hoperand =>
      simp only [Work.after]
      rw [eval_filter, hoperand.bind_eq]
      exact h.after_bind (fun _ => h.closed.operate scene _) _
  | @testOperand _ _ test _ _ hoperand =>
      simp only [Work.after, eval_test]
      cases hdefined : isDefinedTest test with
      | true =>
          rw [testOutcome_defined hoperand hdefined, ← succeeds_after]
          exact h.trans (h.after_bind (fun _ => h.closed.pure _) _)
            (h.after_bind (fun _ => h.closed.pure _) _)
      | false =>
          rw [testOutcome_of_ne_var hoperand hdefined]
          exact h.trans (h.after_bind (fun _ => h.closed.ofExcept _) _)
            (h.after_bind (fun _ => h.closed.pure _) _)
  | binaryLeft =>
      simp only [Work.after, eval_binary]
      exact h.after_bind (fun _ => h.binaryRest scene _ _ _ _) _
  | binaryRight hleft hgoes =>
      simp only [Work.after, eval_binary]
      rw [hleft.bind_eq]
      unfold binaryRest
      rw [if_pos hgoes]
      apply h.after_bind
      exact fun _ => Steady.ite (h.closed.pure _) (h.closed.operate scene _)
  | condition =>
      simp only [Work.after, eval_cond]
      exact h.after_bind (fun _ => h.condRest scene _ _ _ _) _
  | condYes hcondition hholds =>
      simp only [Work.after, eval_cond]
      rw [hcondition.bind_eq, condRest_of_holds hholds]
      exact h.refl _
  | condNo hcondition hholds =>
      simp only [Work.after, eval_cond, condRest]
      rw [hcondition.bind_eq, hholds]
      exact h.refl _
  | exprsFirst =>
      simp only [Work.after, evalAll]
      exact h.after_bind (fun _ => h.bind (h.evalAll scene _ _) fun _ => h.closed.pure _) _
  | exprsRest hfirst =>
      simp only [Work.after, evalAll]
      rw [hfirst.bind_eq]
      exact h.after_bind (fun _ => h.closed.pure _) _
  | entriesKey =>
      simp only [Work.after, evalEntries]
      exact h.after_bind (fun _ => h.bind (h.eval scene _ _) fun _ =>
        h.bind (h.evalEntries scene _ _) fun _ => h.closed.pure _) _
  | entriesValue hkey =>
      simp only [Work.after, evalEntries]
      rw [hkey.bind_eq]
      exact h.after_bind (fun _ => h.bind (h.evalEntries scene _ _) fun _ => h.closed.pure _) _
  | entriesRest hkey hvalue =>
      simp only [Work.after, evalEntries]
      rw [hkey.bind_eq, hvalue.bind_eq]
      exact h.after_bind (fun _ => h.closed.pure _) _
  | namedFirst =>
      simp only [Work.after, evalNamed]
      exact h.after_bind (fun _ => h.bind (h.evalNamed scene _ _) fun _ => h.closed.pure _) _
  | namedRest hfirst =>
      simp only [Work.after, evalNamed]
      rw [hfirst.bind_eq]
      exact h.after_bind (fun _ => h.closed.pure _) _
  | callParams hfind hcount =>
      simp only [Work.after]
      rw [callByName_of_found hfind]
      unfold callMacro
      rw [if_neg (Nat.not_lt.mpr hcount)]
      apply h.after_bind
      rintro ⟨frame, unused⟩
      cases unused with
      | cons entry rest => exact h.closed.fail _
      | nil =>
          exact h.bind (h.nested _ (h.isolated frame ((h.within scene _).body _))) fun _ =>
            h.closed.pure _
  | callBody hfind hcount hbound hdepth =>
      simp only [Work.after]
      rw [callByName_of_found hfind]
      unfold callMacro
      rw [if_neg (Nat.not_lt.mpr hcount), hbound.bind_eq]
      exact nested_lasts h (a := Action.isolated _ (execAll scene _ _)) hdepth fun _ =>
        h.closed.pure _
  | callText hfind hfirst hparse hdepth =>
      simp only [Work.after]
      unfold callByName
      rw [hfind]
      change R _ (Function.renderText scene _ _ _).2.declared
      unfold Function.renderText
      rw [(yields_ofExcept.mpr ⟨hfirst, rfl⟩).bind_eq, (yields_ofExcept.mpr ⟨hparse, rfl⟩).bind_eq]
      exact nested_lasts h hdepth fun _ => h.closed.pure _
  | paramsGiven =>
      simp only [Work.after, bindParameters]
      exact h.refl _
  | paramsNamed hnamed | paramsNull hnamed =>
      simp only [Work.after, bindParameters, hnamed]
      exact h.refl _
  | paramsDefault hnamed =>
      simp only [Work.after, bindParameters, hnamed]
      exact h.after_bind (fun _ => h.bindParameters scene _ _ _ _ _) _
  | paramsDefaulted hnamed hvalue =>
      simp only [Work.after, bindParameters, hnamed]
      rw [hvalue.bind_eq]
      exact h.refl _
  | output | run =>
      simp only [Work.after, exec]
      exact h.after_bind (fun _ => h.closed.pure _) _
  | branch =>
      simp only [Work.after, exec]
      exact h.refl _
  | assign =>
      simp only [Work.after, exec]
      exact h.after_bind (fun _ => h.bind (h.assign _ _) fun _ => h.closed.pure _) _
  | loopItems =>
      simp only [Work.after, exec]
      apply h.after_bind
      intro value
      apply h.bind (h.closed.ofExcept _)
      exact fun items => Steady.ite (h.execAll scene _ _) (h.runLoop scene _ _ _ _ _ _)
  | loopEmpty hiterable hitems =>
      simp only [Work.after, exec]
      rw [hiterable.bind_eq, (yields_operated hitems).bind_eq]
      exact h.refl _
  | loopRounds hiterable hitems hne =>
      simp only [Work.after, exec]
      rw [hiterable.bind_eq, (yields_operated hitems).bind_eq, if_neg (by simpa using hne)]
      exact h.refl _
  | nodesFirst =>
      simp only [Work.after, execAll]
      exact h.after_bind (fun _ => h.bind (h.execAll scene _ _) fun _ => h.closed.pure _) _
  | nodesRest hfirst =>
      simp only [Work.after, execAll]
      rw [hfirst.bind_eq]
      exact h.after_bind (fun _ => h.closed.pure _) _
  | otherwise =>
      simp only [Work.after, execBranches]
      exact h.refl _
  | branchCondition =>
      simp only [Work.after, execBranches]
      exact h.after_bind (fun _ => Steady.ite (h.execAll scene _ _) (h.execBranches scene _ _ _)) _
  | branchTaken hcondition hholds =>
      simp only [Work.after, execBranches]
      rw [hcondition.bind_eq, if_pos hholds]
      exact h.refl _
  | branchSkipped hcondition hholds =>
      simp only [Work.after, execBranches]
      rw [hcondition.bind_eq, if_neg (by simp [hholds])]
      exact h.refl _
  | round hbind =>
      simp only [Work.after, runLoop]
      rw [(yields_operated hbind).bind_eq]
      exact inFrame_lasts h (fun _ => h.bind (h.runLoop scene _ _ _ _ _ _) fun _ =>
        h.closed.pure _) _
  | roundsRest hbind hround =>
      simp only [Work.after, runLoop]
      rw [(yields_operated hbind).bind_eq, hround.bind_eq]
      exact h.after_bind (fun _ => h.closed.pure _) _

theorem Reaches.rest_lasts (hreaches : Reaches scene p q) :
    R (q.after scene).declared (p.after scene).declared := by
  induction hreaches with
  | refl => exact h.refl _
  | tail _ hpart ih => exact h.trans (hpart.rest_lasts h) ih

end Points

/-!
## Renderings
-/

theorem declaredOutput_eq_some_iff {declared columns : Schema} :
    declaredOutput declared = some columns ↔ declared = columns ∧ columns ≠ [] := by
  cases declared with
  | nil =>
      constructor
      · intro h
        cases h
      · rintro ⟨rfl, h⟩
        exact absurd rfl h
  | cons column rest =>
      constructor
      · intro h
        cases h
        exact ⟨rfl, List.cons_ne_nil _ _⟩
      · rintro ⟨rfl, -⟩
        rfl

theorem render_output_isUsable {template : Template} {context : Context} {rendered : Rendered}
    (h : render template context = .ok rendered) {columns : Schema}
    (houtput : rendered.output = some columns) : columns.IsUsable := by
  rcases render_eq_ok_iff.mp h with ⟨text, after, hrun, -, rfl⟩
  rcases declaredOutput_eq_some_iff.mp houtput with ⟨rfl, hne⟩
  exact ⟨hne, (enduring_distinct.execAll _ callBudget _).yields hrun List.nodup_nil⟩

end Template
end TransformChain
