import TransformChain.Proofs.Template.Steady

/-!
# Frames and nesting

Evaluation may set variables of the innermost frame.  The frames around it and the nesting depth
are the same afterwards, however the evaluation ends, and nothing that is evaluated on the way is
nested deeper than the limit.
-/

namespace TransformChain
namespace Template

open Template.Action

/-- The nesting depth, the number of frames, and every frame but the innermost are the same. -/
structure SameOutside (before after : State) : Prop where
  depth : after.depth = before.depth
  count : after.frames.length = before.frames.length
  outer : after.frames.tail = before.frames.tail

theorem SameOutside.of_eq {before after : State} (hdepth : after.depth = before.depth)
    (hframes : after.frames = before.frames) : SameOutside before after :=
  ⟨hdepth, congrArg List.length hframes, congrArg List.tail hframes⟩

theorem lasting_sameOutside : Lasting SameOutside where
  refl _ := .of_eq rfl rfl
  trans hxy hyz :=
    ⟨hyz.depth.trans hxy.depth, hyz.count.trans hxy.count, hyz.outer.trans hxy.outer⟩

def SameFrames (before after : State) : Prop :=
  after.frames = before.frames

theorem lasting_sameFrames : Lasting SameFrames where
  refl _ := rfl
  trans hxy hyz := Eq.trans hyz hxy

/-!
## Actions on the state
-/

theorem sameOutside_assign (name : String) (value : Value) :
    Steady SameOutside (Action.assign name value) := by
  intro x
  unfold Action.assign
  cases hframes : x.frames with
  | nil => exact .of_eq rfl rfl
  | cons frame outer =>
      constructor
      · rfl
      · simp [hframes]
      · simp [hframes]

theorem sameOutside_declare (template : String) (column : Column) :
    Steady SameOutside (Action.declare template column) := by
  intro x
  unfold Action.declare
  cases x.declared.has column.name <;> exact .of_eq rfl rfl

theorem inFrame_frames {frame : Frame} {a : Action α} (ha : Steady SameOutside a) (x : State) :
    (Action.inFrame frame a x).2.frames = x.frames := by
  have hinner := (ha { x with frames := frame :: x.frames }).outer
  change (a { x with frames := frame :: x.frames }).2.frames.drop 1 = x.frames
  rw [List.drop_one]
  exact hinner

theorem sameOutside_inFrame (frame : Frame) {a : Action α} (ha : Steady SameOutside a) :
    Steady SameOutside (Action.inFrame frame a) := by
  intro x
  exact .of_eq (ha { x with frames := frame :: x.frames }).depth (inFrame_frames ha x)

theorem isolated_frames (frame : Frame) (a : Action α) (x : State) :
    (Action.isolated frame a x).2.frames = x.frames := rfl

theorem sameOutside_isolated (frame : Frame) {a : Action α} (ha : Steady SameOutside a) :
    Steady SameOutside (Action.isolated frame a) := by
  intro x
  exact .of_eq (ha _).depth (isolated_frames frame a x)

theorem sameOutside_nested (template : String) {a : Action α} (ha : Steady SameOutside a) :
    Steady SameOutside (Action.nested template a) := by
  intro x
  unfold Action.nested
  by_cases hdeep : depthLimit ≤ x.depth
  · rw [if_pos hdeep]
    exact .of_eq rfl rfl
  · rw [if_neg hdeep]
    have hinner := ha { x with depth := x.depth + 1 }
    refine ⟨?_, hinner.count, hinner.outer⟩
    change (a { x with depth := x.depth + 1 }).2.depth - 1 = x.depth
    rw [hinner.depth]
    exact Nat.add_sub_cancel x.depth 1

theorem enduring_sameOutside : Enduring SameOutside where
  toLasting := lasting_sameOutside
  assign := sameOutside_assign
  declare := sameOutside_declare
  inFrame := sameOutside_inFrame
  isolated := sameOutside_isolated
  nested := sameOutside_nested

/-!
## Calls
-/

section Calls

variable {scene : Scene} {calls : Calls}

theorem bind_frames {a : Action α} {f : α → Action β}
    (hf : ∀ value, Steady SameFrames (f value)) (x : State) :
    ((a >>= f) x).2.frames = (a x).2.frames := by
  change (andThen a f x).2.frames = (a x).2.frames
  unfold andThen
  rcases a x with ⟨outcome, next⟩
  cases outcome with
  | done value => exact hf value next
  | failed error => rfl
  | spent => rfl

theorem sameFrames_body (template : String) (frame : Frame) (a : Action α) :
    Steady SameFrames (Action.nested template (Action.isolated frame a)) := by
  intro x
  unfold Action.nested
  by_cases hdeep : depthLimit ≤ x.depth
  · rw [if_pos hdeep]
    rfl
  · rw [if_neg hdeep]
    rfl

theorem callMacro_frames {target : MacroDef} {call : Function.Call}
    (hcount : call.positional.length ≤ target.params.length) (x : State) :
    (callMacro scene calls target call x).2.frames =
      (bindParameters calls target.params call.positional (Keyed.ofPairs call.named) [] x).2.frames
    := by
  unfold callMacro
  rw [if_neg (Nat.not_lt.mpr hcount)]
  apply bind_frames
  rintro ⟨frame, unused⟩
  cases unused with
  | cons entry rest => exact lasting_sameFrames.closed.fail _
  | nil => exact lasting_sameFrames.bind (sameFrames_body _ _ _) fun text => lasting_sameFrames.refl

theorem eval_sameOutside (scene : Scene) (budget : Nat) (e : Expr) :
    Steady SameOutside (eval scene (.within scene budget) e) :=
  enduring_sameOutside.eval scene budget e

theorem execAll_sameOutside (scene : Scene) (budget : Nat) (ns : List Node) :
    Steady SameOutside (execAll scene (.within scene budget) ns) :=
  enduring_sameOutside.execAll scene budget ns

theorem exec_loop_frames {budget : Nat} {target : LoopTarget} {iterable : Expr}
    {body empty : List Node} {x y : State} {value item : Value} {items : List Value}
    (hvalue : Yields (eval scene (.within scene budget) iterable) x value y)
    (hitems : Operation.items value = .ok (item :: items)) :
    (exec scene (.within scene budget) (.loop target iterable body empty) x).2.frames =
      y.frames := by
  have hrounds : Steady SameFrames (runLoop scene target (execAll scene (.within scene budget) body)
      (items.length + 1) 0 (item :: items)) :=
    lasting_sameFrames.closed.runLoop
      (fun frame x => inFrame_frames (execAll_sameOutside scene budget body) x) _ _ 0
  simp only [exec]
  rw [hvalue.bind_eq, hitems]
  exact hrounds y

end Calls

/-!
## On the way
-/

section Points

variable {scene : Scene}

theorem depth_le_after {a : Action α} (ha : Steady SameOutside a) {x y : State} {value : α}
    (hyields : Yields a x value y) (h : x.depth ≤ depthLimit) : y.depth ≤ depthLimit :=
  le_of_eq_of_le (ha.yields hyields).depth h

/-- Only the body of a macro and a rendered text begin deeper than what leads to them, and they
begin only where the limit is not reached. -/
theorem Part.depth_le {p q : Point} (hpart : Part scene p q) (h : p.state.depth ≤ depthLimit) :
    q.state.depth ≤ depthLimit := by
  have hkept := enduring_sameOutside
  cases hpart with
  | indexKey hvalue | binaryRight hvalue _ | condYes hvalue _ | condNo hvalue _
  | exprsRest hvalue | entriesValue hvalue | namedRest hvalue | loopEmpty hvalue _
  | loopRounds hvalue _ _ | branchTaken hvalue _ | branchSkipped hvalue _ =>
      exact depth_le_after (hkept.eval scene _ _) hvalue h
  | entriesRest hkey hvalue =>
      exact depth_le_after (hkept.eval scene _ _) hvalue
        (depth_le_after (hkept.eval scene _ _) hkey h)
  | callNamed hvalues => exact depth_le_after (hkept.evalAll scene _ _) hvalues h
  | callReceiver hvalues hpairs | callFunction hvalues hpairs =>
      exact depth_le_after (hkept.evalNamed scene _ _) hpairs
        (depth_le_after (hkept.evalAll scene _ _) hvalues h)
  | filterArgs hvalue => exact depth_le_after (hkept.filterOperand scene _ _ _) hvalue h
  | paramsDefaulted _ hvalue => exact depth_le_after ((hkept.within scene _).value _) hvalue h
  | nodesRest hnode => exact depth_le_after (hkept.exec scene _ _) hnode h
  | roundsRest _ hround =>
      exact depth_le_after (hkept.inFrame _ (hkept.execAll scene _ _)) hround h
  | callBody _ _ _ hdepth | callText _ _ _ hdepth => exact hdepth
  | _ => exact h

theorem Reaches.depth_le {p q : Point} (hreaches : Reaches scene p q)
    (h : p.state.depth ≤ depthLimit) : q.state.depth ≤ depthLimit := by
  induction hreaches with
  | refl => exact h
  | tail _ hpart ih => exact hpart.depth_le ih

/-- However an evaluation ends, the nesting depth, the number of frames and every frame but the
innermost are as they were, and on the way nothing is nested deeper than the limit.  A loop over
something and the body of a macro leave no frame changed at all. -/
theorem evaluation_keeps_outside (scene : Scene) (budget : Nat) (x : State)
    (hdepth : x.depth ≤ depthLimit) :
    (∀ e, SameOutside x (eval scene (.within scene budget) e x).2) ∧
    (∀ ns, SameOutside x (execAll scene (.within scene budget) ns x).2) ∧
    (∀ work q, Reaches scene ⟨budget, work, x⟩ q → q.state.depth ≤ depthLimit) ∧
    (∀ target iterable body empty value item items y,
      Yields (eval scene (.within scene budget) iterable) x value y →
      Operation.items value = .ok (item :: items) →
      (exec scene (.within scene budget) (.loop target iterable body empty) x).2.frames =
        y.frames) ∧
    (∀ (target : MacroDef) (call : Function.Call),
      call.positional.length ≤ target.params.length →
      (callMacro scene (.within scene budget) target call x).2.frames =
        (bindParameters (.within scene budget) target.params call.positional
          (Keyed.ofPairs call.named) [] x).2.frames) := by
  refine ⟨?_, ?_, ?_, ?_, ?_⟩
  · exact fun e => eval_sameOutside scene budget e x
  · exact fun ns => execAll_sameOutside scene budget ns x
  · exact fun work q hreaches => hreaches.depth_le hdepth
  · exact fun _ _ _ _ _ _ _ _ hvalue hitems => exec_loop_frames hvalue hitems
  · exact fun _ _ hcount => callMacro_frames hcount x

def failingScene : Scene where
  template := ⟨"t", "", [], [⟨"loud", [], [.assign "x" (.lit (.int 1)), .output (.var "missing")]⟩]⟩
  context := ⟨"T", "T", none, [], []⟩

def callerState : State :=
  ⟨[[("x", .str "caller")], [("x", .str "global")]], [], 31⟩

/-- The macro fails at the limit, after it has set its variable. -/
theorem outside_kept_by_failing_macro :
    callerState.depth ≤ depthLimit ∧
    (eval failingScene (.within failingScene 1) (.call (.var "loud") [] []) callerState).1 =
      .failed (.templateEvaluation "t" (.undefined "missing")) ∧
    SameOutside callerState
      (eval failingScene (.within failingScene 1) (.call (.var "loud") [] []) callerState).2 :=
  ⟨by decide, rfl, (evaluation_keeps_outside failingScene 1 callerState (by decide)).left _⟩

end Points

end Template
end TransformChain
