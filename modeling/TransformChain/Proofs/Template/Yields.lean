import Mathlib.Tactic.Common
import TransformChain.Template.Rendering

/-!
# Successful runs

What it takes for an action to succeed with a value and a state.  The rules are equivalences, so
that a concrete template can be run backwards: from the success of the whole to the facts that the
arguments and the schemas must satisfy, and to the text and the columns that result.
-/

namespace TransformChain

theorem except_bind_eq_ok {a : Except ε α} {f : α → Except ε β} {w : β} :
    (a >>= f) = .ok w ↔ ∃ value, a = .ok value ∧ f value = .ok w := by
  cases a <;> simp [bind, Except.bind]

theorem eq_ok_of_toOption {result : Except ε α} {value : α} (h : result.toOption = some value) :
    result = .ok value := by
  cases result with
  | error e => cases h
  | ok found =>
      cases h
      rfl

namespace Template
namespace Action

/-- The action succeeds in the first state with the value and the second state. -/
def Yields (a : Action α) (before : State) (value : α) (after : State) : Prop :=
  a before = (.done value, after)

section Rules

variable {before after : State}

@[simp] theorem yields_pure {value w : α} :
    Yields (Pure.pure value) before w after ↔ value = w ∧ before = after := by
  simp [Yields, Pure.pure, done]

@[simp] theorem yields_bind {a : Action α} {f : α → Action β} {w : β} :
    Yields (a >>= f) before w after ↔
      ∃ value between, Yields a before value between ∧ Yields (f value) between w after := by
  simp only [Yields, bind, andThen]
  cases h : a before with
  | mk outcome between => cases outcome <;> simp [and_assoc]

theorem Yields.bind_eq {a : Action α} {f : α → Action β} {value : α} {between : State}
    (h : Yields a before value between) : (a >>= f) before = f value between := by
  change andThen a f before = f value between
  unfold andThen
  rw [h]

theorem Yields.after_eq {a : Action α} {value w : α} {other : State}
    (h : Yields a before value after) (hother : Yields a before w other) : after = other := by
  unfold Yields at h hother
  rw [h] at hother
  exact congrArg Prod.snd hother

@[simp] theorem yields_fail {e : Error} {w : α} :
    Yields (Action.fail e) before w after ↔ False := by
  simp [Yields, fail]

@[simp] theorem yields_ofExcept {result : Except Error α} {w : α} :
    Yields (Action.ofExcept result) before w after ↔ result = .ok w ∧ before = after := by
  cases result <;> simp [Yields, ofExcept, fail, done]

@[simp] theorem yields_lookup {name : String} {w : Option Value} :
    Yields (Action.lookup name) before w after ↔
      find? name before.frames = w ∧ before = after := by
  simp [Yields, lookup]

@[simp] theorem yields_assign {name : String} {value : Value} {w : Unit} {frame : Frame}
    {outer : List Frame} {declared : Schema} {depth : Nat} :
    Yields (Action.assign name value) ⟨frame :: outer, declared, depth⟩ w after ↔
      after = ⟨Keyed.put name value frame :: outer, declared, depth⟩ := by
  simp [Yields, assign, eq_comm]

@[simp] theorem yields_declare {template : String} {column : Column} {w : Unit} :
    Yields (Action.declare template column) before w after ↔
      before.declared.has column.name = false ∧
        after = { before with declared := before.declared ++ [column] } := by
  unfold Yields declare
  cases h : before.declared.has column.name with
  | false => simp [eq_comm]
  | true => simp

@[simp] theorem yields_ite {condition : Prop} [Decidable condition] {a b : Action α} {w : α} :
    Yields (if condition then a else b) before w after ↔
      if condition then Yields a before w after else Yields b before w after := by
  by_cases h : condition
  · simp [h]
  · simp [h]

theorem yields_inFrame {frame : Frame} {a : Action α} {w : α} :
    Yields (Action.inFrame frame a) before w after ↔
      ∃ inner, Yields a { before with frames := frame :: before.frames } w inner ∧
        after = { inner with frames := inner.frames.drop 1 } := by
  unfold Yields inFrame
  cases h : a { before with frames := frame :: before.frames } with
  | mk outcome inner => simp [eq_comm]

theorem yields_isolated {frame : Frame} {a : Action α} {w : α} :
    Yields (Action.isolated frame a) before w after ↔
      ∃ inner, Yields a { before with frames := [frame, before.frames.getLast?.getD []] } w inner ∧
        after = { inner with frames := before.frames } := by
  unfold Yields isolated
  cases h : a { before with frames := [frame, before.frames.getLast?.getD []] } with
  | mk outcome inner => simp [h, eq_comm]

theorem yields_nested {template : String} {a : Action α} {w : α} :
    Yields (Action.nested template a) before w after ↔
      before.depth < depthLimit ∧
        ∃ inner, Yields a { before with depth := before.depth + 1 } w inner ∧
          after = { inner with depth := inner.depth - 1 } := by
  unfold Yields nested
  by_cases hdeep : depthLimit ≤ before.depth
  · simp [hdeep, Nat.not_lt_of_le hdeep]
  · cases h : a { before with depth := before.depth + 1 } with
    | mk outcome inner => simp [hdeep, Nat.lt_of_not_le hdeep, eq_comm]

end Rules

end Action

open Template.Action

section Evaluation

variable {scene : Scene} {calls : Calls} {before after : State}

@[simp] theorem operated_eq_ok {result : Operated α} {w : α} :
    scene.operated result = .ok w ↔ result = .ok w := by
  cases result <;> simp [Scene.operated]

theorem yields_operated {result : Operated α} {w : α} (h : result = .ok w) :
    Yields (Action.ofExcept (scene.operated result)) before w before :=
  yields_ofExcept.mpr ⟨operated_eq_ok.mpr h, rfl⟩

@[simp] theorem yields_operate {result : Operated Value} {w : Value} :
    Yields (operate scene result) before w after ↔ result = .ok w ∧ before = after := by
  simp [operate]

@[simp] theorem yields_evalVar {name : String} {w : Value} :
    Yields (evalVar scene name) before w after ↔
      find? name before.frames = some w ∧ before = after := by
  simp only [evalVar, yields_bind, yields_lookup]
  cases h : find? name before.frames <;> simp

theorem eval_operands {op : BinaryOp} {left right : Expr} {a b : Value} {between : State}
    (hand : op ≠ .and) (hor : op ≠ .or) (hleft : Yields (eval scene calls left) before a between)
    (hright : Yields (eval scene calls right) between b after) :
    eval scene calls (.binary op left right) before =
      operate scene (Operation.binary op a b) after := by
  cases op
  case and => exact absurd rfl hand
  case or => exact absurd rfl hor
  all_goals
    simp only [eval]
    rw [hleft.bind_eq, hright.bind_eq]

theorem yields_operands {op : BinaryOp} {left right : Expr} {a b w : Value} {between : State}
    (hand : op ≠ .and) (hor : op ≠ .or) (hleft : Yields (eval scene calls left) before a between)
    (hright : Yields (eval scene calls right) between b after)
    (h : Operation.binary op a b = .ok w) :
    Yields (eval scene calls (.binary op left right)) before w after :=
  (eval_operands hand hor hleft hright).trans (yields_operate.mpr ⟨h, rfl⟩)

theorem callByName_eq (hmacros : scene.template.body.macros = []) (name : String)
    (call : Function.Call) :
    callByName scene calls name call = Function.call scene calls.body name call := by
  unfold callByName findMacro?
  rw [hmacros]
  rfl

/-!
## Loops
-/

def pieces (piece : Nat → α → String) : Nat → List α → String
  | _, [] => ""
  | i, x :: rest => piece i x ++ pieces piece (i + 1) rest

/-- A loop succeeds only if each round does; when a round writes a piece of text, declares columns
and leaves the outer frames alone, so does the loop as a whole. -/
theorem runLoop_yields {target : LoopTarget} {body : Action String} {length depth : Nat}
    {outer : List Frame} {value : α → Value} {frame : α → Frame} {piece : Nat → α → String}
    {columns : α → Schema} {P : α → Prop}
    (hbind : ∀ x, target.bind (value x) = .ok (frame x))
    (hround : ∀ i x declared text after,
      Yields body ⟨Keyed.put "loop" (loopInfo i length) (frame x) :: outer, declared, depth⟩
        text after →
      P x ∧ text = piece i x ∧
        ∃ inner, after = ⟨inner :: outer, declared ++ columns x, depth⟩) :
    ∀ (xs : List α) (i : Nat) (declared : Schema) (text : String) (after : State),
      Yields (runLoop scene target body length i (xs.map value)) ⟨outer, declared, depth⟩
        text after →
      (∀ x ∈ xs, P x) ∧ text = pieces piece i xs ∧
        after = ⟨outer, declared ++ xs.flatMap columns, depth⟩ := by
  intro xs
  induction xs with
  | nil =>
      intro i declared text after h
      simp only [List.map_nil, runLoop, yields_pure] at h
      rcases h with ⟨rfl, rfl⟩
      simp [pieces]
  | cons x rest ih =>
      intro i declared text after h
      simp only [List.map_cons, runLoop, yields_bind, yields_ofExcept, operated_eq_ok, hbind,
        Except.ok.injEq, yields_inFrame, yields_pure] at h
      rcases h with ⟨_, _, ⟨rfl, rfl⟩, first, _, ⟨inner, hbody, rfl⟩, more, _, hrest, rfl, rfl⟩
      rcases hround i x declared first inner hbody with ⟨hP, rfl, frame', rfl⟩
      rcases ih (i + 1) (declared ++ columns x) more _ hrest with ⟨hPs, rfl, rfl⟩
      refine ⟨?_, rfl, ?_⟩
      · intro y hy
        rcases List.mem_cons.mp hy with rfl | hy
        · exact hP
        · exact hPs y hy
      · simp

theorem exec_loop_yields (value : α → Value) (frame : α → Frame) {target : LoopTarget}
    {iterable : Expr} {body : List Node} {depth : Nat} {outer : List Frame} {declared : Schema}
    {text : String} {items : Value} {piece : Nat → α → String} {columns : α → Schema}
    {P : α → Prop} {xs : List α}
    (h : Yields (exec scene calls (.loop target iterable body [])) ⟨outer, declared, depth⟩
      text after)
    (hiterable : ∀ v between, Yields (eval scene calls iterable) ⟨outer, declared, depth⟩
      v between → v = items ∧ between = ⟨outer, declared, depth⟩)
    (hitems : Operation.items items = .ok (xs.map value))
    (hbind : ∀ x, target.bind (value x) = .ok (frame x))
    (hround : ∀ i x declared text after,
      Yields (execAll scene calls body)
        ⟨Keyed.put "loop" (loopInfo i xs.length) (frame x) :: outer, declared, depth⟩
        text after →
      P x ∧ text = piece i x ∧
        ∃ inner, after = ⟨inner :: outer, declared ++ columns x, depth⟩) :
    (∀ x ∈ xs, P x) ∧ text = pieces piece 0 xs ∧
      after = ⟨outer, declared ++ xs.flatMap columns, depth⟩ := by
  simp only [exec, yields_bind, yields_ofExcept, operated_eq_ok] at h
  rcases h with ⟨v, _, hv, found, _, ⟨hfound, rfl⟩, h⟩
  rcases hiterable v _ hv with ⟨rfl, rfl⟩
  rw [hitems] at hfound
  cases hfound
  cases xs with
  | nil =>
      simp only [List.map_nil, List.isEmpty_nil, if_true, execAll, yields_pure] at h
      rcases h with ⟨rfl, rfl⟩
      simp [pieces]
  | cons x rest =>
      simp only [List.map_cons, List.isEmpty_cons, Bool.false_eq_true, if_false] at h
      rw [← List.map_cons, List.length_map] at h
      exact runLoop_yields hbind hround (x :: rest) 0 declared text after h

end Evaluation

/-!
## Renderings
-/

def Scene.bare : Scene :=
  ⟨⟨"t", "", [], []⟩, ⟨"T", "T", none, [], []⟩⟩

theorem render_eq_ok_iff {template : Template} {context : Context} {rendered : Rendered} :
    render template context = .ok rendered ↔
      ∃ text after, Scene.run ⟨template, context⟩ callBudget = (.done text, after) ∧
        Text.trim text ≠ "" ∧ rendered = ⟨Text.trim text, declaredOutput after.declared⟩ := by
  unfold render
  generalize Scene.run ⟨template, context⟩ callBudget = result
  rcases result with ⟨outcome, after⟩
  cases outcome with
  | failed e => simp
  | spent => simp
  | done text =>
      by_cases hempty : Text.trim text = ""
      · simp [hempty]
      · simp only [hempty, if_false, Except.ok.injEq, Prod.mk.injEq, Outcome.done.injEq]
        constructor
        · rintro rfl
          exact ⟨text, after, ⟨rfl, rfl⟩, hempty, rfl⟩
        · rintro ⟨_, _, ⟨rfl, rfl⟩, -, rfl⟩
          rfl

end Template
end TransformChain
