import TransformChain.Proofs.Template.Steady

/-!
# Templates that ask about one variable

A template without macros that asks about no other dataset than the one in a certain variable, and
never sets that variable, passes nothing but the variable's value to the functions that take a
dataset.  The variable keeps its value on the whole way through the template.
-/

namespace TransformChain
namespace Template

open Template.Action

def datasetExpr (function : String) (args : List Expr) : Option Expr :=
  match function with
  | "get_columns" | "columns" | "dataset_name" => args.head?
  | "require_columns" => args[1]?
  | _ => none

def asksAbout (subject function : String) (args : List Expr) : Bool :=
  match datasetExpr function args with
  | none => true
  | some (.var name) => name == subject
  | some _ => false

/-- No text is rendered, nothing but the variable is asked about, and it is not set. -/
def asking (subject : String) : NodeCheck where
  reads _ := true
  calls function args keywords :=
    function != "render" && keywords.isEmpty && asksAbout subject function args
  sets name := name != subject
  prints _ := false

section Subject

variable {subject : String}

/-!
## The variable keeps its value
-/

/-- Outer frames are the same, and the variable has the same value in the innermost one. -/
inductive KeepsVariable (subject : String) (x y : State) : Prop where
  | same : x.frames = y.frames → KeepsVariable subject x y
  | inner (frame frame' : Frame) (outer : List Frame) : x.frames = frame :: outer →
      y.frames = frame' :: outer → Keyed.get? subject frame = Keyed.get? subject frame' →
      KeepsVariable subject x y

theorem KeepsVariable.find?_eq {x y : State} (h : KeepsVariable subject x y) :
    find? subject x.frames = find? subject y.frames := by
  cases h with
  | same hframes => rw [hframes]
  | inner frame frame' outer hx hy hget =>
      rw [hx, hy]
      unfold find?
      rw [hget]

theorem lasting_keepsVariable : Lasting (KeepsVariable subject) where
  refl x := .same rfl
  trans := by
    intro x y z hxy hyz
    cases hxy with
    | same hframes =>
        cases hyz with
        | same hframes' => exact .same (hframes.trans hframes')
        | inner frame frame' outer hy hz hget =>
            exact .inner frame frame' outer (hframes.trans hy) hz hget
    | inner frame frame' outer hx hy hget =>
        cases hyz with
        | same hframes => exact .inner frame frame' outer hx (hframes ▸ hy) hget
        | inner frame'' frame''' outer' hy' hz hget' =>
            rw [hy] at hy'
            cases hy'
            exact .inner frame frame''' outer hx hz (hget.trans hget')

theorem closedCalls_asking {scene : Scene} (hmacros : scene.template.body.macros = [])
    (calls : Calls) :
    ClosedCalls (Steady (KeepsVariable subject)) scene calls (asking subject).toCheck := by
  intro name args keywords hcheck call
  simp only [asking, Bool.and_eq_true, bne_iff_ne] at hcheck
  rw [callByName_eq hmacros]
  apply lasting_keepsVariable.closed.function
  · intro template column x
    unfold declare
    cases x.declared.has column.name <;> exact .same rfl
  · exact hcheck.left.left

theorem closedNodes_asking {scene : Scene} (hmacros : scene.template.body.macros = [])
    (calls : Calls) :
    ClosedNodes (Steady (KeepsVariable subject)) scene calls (asking subject) where
  closed := lasting_keepsVariable.closed
  functions := closedCalls_asking hmacros calls
  prints h := by cases h
  sets := by
    intro name hname value x
    have hne : subject ≠ name := by
      intro heq
      simp [asking, heq] at hname
    unfold assign
    cases hx : x.frames with
    | nil => exact .same rfl
    | cons frame outer =>
        exact .inner frame _ outer hx rfl (Keyed.get?_put_ne value frame hne).symm
  frame := by
    intro frame a ha x
    have hinner := ha { x with frames := frame :: x.frames }
    unfold inFrame
    rcases hax : a { x with frames := frame :: x.frames } with ⟨outcome, next⟩
    rw [hax] at hinner
    apply KeepsVariable.same
    cases hinner with
    | same hframes => exact congrArg (List.drop 1) hframes
    | inner first second outer hfirst hsecond _ =>
        cases hfirst
        exact (congrArg (List.drop 1) hsecond).symm

/-!
## Along the way
-/

def Work.asksAbout (subject : String) (found : Option Value) : Work → Prop
  | .expr e => (asking subject).expr e = true
  | .exprs es => (asking subject).exprs es = true
  | .entries es => (asking subject).entries es = true
  | .named es => (asking subject).named es = true
  | .call function given =>
      function ≠ "render" ∧
        ∀ value, datasetArgument function given = some value → found = some value
  | .params _ _ _ _ => False
  | .node n => (asking subject).node n = true
  | .nodes ns => (asking subject).nodes ns = true
  | .branches alternatives otherwise =>
      (asking subject).branches alternatives = true ∧ (asking subject).nodes otherwise = true
  | .rounds target body _ _ _ =>
      target.names.all (asking subject).sets = true ∧ (asking subject).nodes body = true

structure AsksAbout (subject : String) (found : Option Value) (p : Point) : Prop where
  work : p.work.asksAbout subject found
  state : find? subject p.state.frames = found

theorem found_after {a : Action α} (hsteady : Steady (KeepsVariable subject) a) {x y : State}
    {value : α} (hyields : Yields a x value y) {found : Option Value}
    (h : find? subject x.frames = found) : find? subject y.frames = found := by
  rw [← (hsteady.yields hyields).find?_eq]
  exact h

theorem length_of_evalAll {scene : Scene} {calls : Calls} {args : List Expr} :
    ∀ {x y : State} {values : List Value}, Yields (evalAll scene calls args) x values y →
      values.length = args.length := by
  induction args with
  | nil =>
      intro x y values h
      simp only [evalAll, yields_pure] at h
      rw [← h.left]
      rfl
  | cons e rest ih =>
      intro x y values h
      simp only [evalAll, yields_bind, yields_pure] at h
      rcases h with ⟨value, between, -, others, after, hothers, rfl, -⟩
      rw [List.length_cons, List.length_cons, ih hothers]

theorem getElem?_of_evalAll {scene : Scene} (hmacros : scene.template.body.macros = [])
    {calls : Calls} {found : Option Value} {args : List Expr} :
    ∀ {x y : State} {values : List Value} {place : Nat},
      (asking subject).exprs args = true → find? subject x.frames = found →
      Yields (evalAll scene calls args) x values y → args[place]? = some (.var subject) →
      values[place]? = found := by
  induction args with
  | nil =>
      intro x y values place _ _ _ hplace
      cases hplace
  | cons e rest ih =>
      intro x y values place hcheck hfound h hplace
      simp only [Check.exprs, Bool.and_eq_true] at hcheck
      simp only [evalAll, yields_bind, yields_pure] at h
      rcases h with ⟨value, between, hvalue, others, after, hothers, rfl, -⟩
      cases place with
      | zero =>
          cases hplace
          simp only [eval, yields_evalVar] at hvalue
          rw [List.getElem?_cons_zero, ← hfound, hvalue.left]
      | succ place =>
          have hsteady := eval_closed lasting_keepsVariable.closed.closedFor
            (closedCalls_asking hmacros calls) e hcheck.left
          rw [List.getElem?_cons_succ]
          exact ih hcheck.right (found_after hsteady hvalue hfound) hothers hplace

theorem argument_of_unnamed (values : List Value) (place : Nat) (name : String) :
    Function.Call.argument ⟨values, []⟩ place name = values[place]? := by
  unfold Function.Call.argument
  cases values[place]? <;> rfl

theorem datasetArgument_of_asksAbout {scene : Scene} (hmacros : scene.template.body.macros = [])
    {calls : Calls} {found : Option Value} {args : List Expr} {x y : State} {values : List Value}
    {function : String} (hcheck : (asking subject).exprs args = true)
    (hasks : asksAbout subject function args = true) (hfound : find? subject x.frames = found)
    (h : Yields (evalAll scene calls args) x values y) {value : Value}
    (hvalue : datasetArgument function ⟨values, []⟩ = some value) : found = some value := by
  have hplace : ∀ place : Nat, datasetExpr function args = args[place]? →
      values[place]? = some value → found = some value := by
    intro place hexpr hgiven
    have hlt : place < args.length := by
      rw [← length_of_evalAll h]
      exact (List.getElem?_eq_some_iff.mp hgiven).choose
    have hsubject : args[place]? = some (.var subject) := by
      unfold asksAbout at hasks
      rw [hexpr, List.getElem?_eq_getElem hlt] at hasks
      rw [List.getElem?_eq_getElem hlt]
      split at hasks
      · rename_i hnone
        cases hnone
      · rename_i name hsome
        rw [hsome, beq_iff_eq.mp hasks]
      · cases hasks
    rw [← getElem?_of_evalAll hmacros hcheck hfound h hsubject]
    exact hgiven
  unfold datasetArgument at hvalue
  split at hvalue
  · rw [argument_of_unnamed] at hvalue
    exact hplace 0 List.head?_eq_getElem? hvalue
  · rw [argument_of_unnamed] at hvalue
    exact hplace 0 List.head?_eq_getElem? hvalue
  · rw [argument_of_unnamed] at hvalue
    exact hplace 1 rfl hvalue
  · rw [List.head?_eq_getElem?] at hvalue
    exact hplace 0 List.head?_eq_getElem? hvalue
  · cases hvalue

theorem get?_of_bind {target : LoopTarget} {item : Value} {bindings : Frame}
    (h : target.bind item = .ok bindings) (hnames : target.names.all (asking subject).sets = true) :
    Keyed.get? subject bindings = none := by
  have hne : ∀ name ∈ target.names, name ≠ subject := by
    intro name hname
    have hset := List.all_eq_true.mp hnames name hname
    simpa [asking] using hset
  cases target with
  | single name =>
      cases h
      have hname : name ≠ subject := hne name List.mem_cons_self
      simp [Keyed.get?, hname]
  | pair first second =>
      have hfirst : first ≠ subject := hne first List.mem_cons_self
      have hsecond : second ≠ subject := hne second (List.mem_cons_of_mem _ List.mem_cons_self)
      unfold LoopTarget.bind at h
      split at h
      · rename_i heq
        cases heq
      · rename_i heq
        cases heq
        cases h
        rw [Keyed.get?_put_ne _ _ (Ne.symm hsecond)]
        simp [Keyed.get?, hfirst]
      · cases h

section Parts

variable {scene : Scene} {found : Option Value} {b : Nat} {x y : State}

theorem found_after_expr (hmacros : scene.template.body.macros = []) {e : Expr} {value : Value}
    (hcheck : (asking subject).expr e = true) (hfound : find? subject x.frames = found)
    (h : Yields (eval scene (.within scene b) e) x value y) : find? subject y.frames = found :=
  found_after ((closedNodes_asking hmacros _).expr hcheck) h hfound

theorem found_after_exprs (hmacros : scene.template.body.macros = []) {es : List Expr}
    {values : List Value} (hcheck : (asking subject).exprs es = true)
    (hfound : find? subject x.frames = found)
    (h : Yields (evalAll scene (.within scene b) es) x values y) :
    find? subject y.frames = found :=
  found_after
    (evalAll_closed lasting_keepsVariable.closed.closedFor (closedCalls_asking hmacros _) es hcheck)
    h hfound

theorem found_after_named (hmacros : scene.template.body.macros = [])
    {es : List (String × Expr)} {values : List (String × Value)}
    (hcheck : (asking subject).named es = true) (hfound : find? subject x.frames = found)
    (h : Yields (evalNamed scene (.within scene b) es) x values y) :
    find? subject y.frames = found :=
  found_after
    (evalNamed_closed lasting_keepsVariable.closed.closedFor (closedCalls_asking hmacros _) es
      hcheck) h hfound

/-- From a point that asks about nothing else every part does so, too. -/
theorem AsksAbout.part (hmacros : scene.template.body.macros = []) (hloop : subject ≠ "loop")
    {p q : Point} (h : AsksAbout subject found p) (hpart : Part scene p q) :
    AsksAbout subject found q := by
  rcases h with ⟨hwork, hstate⟩
  have hnodes : ∀ c, ClosedNodes (Steady (KeepsVariable subject)) scene (.within scene c)
      (asking subject) := fun _ => closedNodes_asking hmacros _
  have hfree : ∀ name, scene.template.findMacro? name = none := by
    intro name
    unfold findMacro?
    rw [hmacros]
    rfl
  cases hpart with
  | list => exact ⟨hwork, hstate⟩
  | dict => exact ⟨hwork, hstate⟩
  | attr => exact ⟨hwork, hstate⟩
  | indexBase =>
      simp only [Work.asksAbout, Check.expr, Bool.and_eq_true] at hwork
      exact ⟨hwork.left, hstate⟩
  | indexKey hbase =>
      simp only [Work.asksAbout, Check.expr, Bool.and_eq_true] at hwork
      exact ⟨hwork.right, found_after_expr hmacros hwork.left hstate hbase⟩
  | callArgs => exact ⟨(Check.of_call hwork).left, hstate⟩
  | callNamed hargs =>
      have hchecks := Check.of_call hwork
      exact ⟨hchecks.right, found_after_exprs hmacros hchecks.left hstate hargs⟩
  | callReceiver hargs hkeywords =>
      simp only [Work.asksAbout, Check.expr, Bool.and_eq_true] at hwork
      have hbetween := found_after_exprs hmacros hwork.left.right hstate hargs
      exact ⟨hwork.left.left, found_after_named hmacros hwork.right hbetween hkeywords⟩
  | callFunction hargs hkeywords =>
      simp only [Work.asksAbout, Check.expr, Bool.and_eq_true] at hwork
      have hbetween := found_after_exprs hmacros hwork.left.right hstate hargs
      refine ⟨?_, found_after_named hmacros hwork.right hbetween hkeywords⟩
      have hcall := hwork.left.left
      simp only [asking, Bool.and_eq_true, bne_iff_ne, List.isEmpty_iff] at hcall
      rcases hcall with ⟨⟨hname, rfl⟩, hasks⟩
      simp only [evalNamed, yields_pure] at hkeywords
      rw [← hkeywords.left]
      exact ⟨hname, fun value =>
        datasetArgument_of_asksAbout hmacros hwork.left.right hasks hstate hargs⟩
  | filterOperand =>
      simp only [Work.asksAbout, Check.expr, Bool.and_eq_true] at hwork
      exact ⟨hwork.left, hstate⟩
  | filterArgs hoperand =>
      simp only [Work.asksAbout, Check.expr, Bool.and_eq_true] at hwork
      refine ⟨hwork.right, ?_⟩
      exact found_after
        (filterOperand_closed lasting_keepsVariable.closed.closedFor _ hwork.left
          ((hnodes _).expr hwork.left)) hoperand hstate
  | testOperand => exact ⟨hwork, hstate⟩
  | not => exact ⟨hwork, hstate⟩
  | neg => exact ⟨hwork, hstate⟩
  | binaryLeft =>
      simp only [Work.asksAbout, Check.expr, Bool.and_eq_true] at hwork
      exact ⟨hwork.left, hstate⟩
  | binaryRight hleft =>
      simp only [Work.asksAbout, Check.expr, Bool.and_eq_true] at hwork
      exact ⟨hwork.right, found_after_expr hmacros hwork.left hstate hleft⟩
  | condition => exact ⟨(Check.of_cond hwork).left, hstate⟩
  | condYes hcondition =>
      have hchecks := Check.of_cond hwork
      exact ⟨hchecks.right, found_after_expr hmacros hchecks.left hstate hcondition⟩
  | condNo hcondition =>
      simp only [Work.asksAbout, Check.expr, Bool.and_eq_true] at hwork
      exact ⟨hwork.right, found_after_expr hmacros hwork.left.left hstate hcondition⟩
  | exprsFirst =>
      simp only [Work.asksAbout, Check.exprs, Bool.and_eq_true] at hwork
      exact ⟨hwork.left, hstate⟩
  | exprsRest hfirst =>
      simp only [Work.asksAbout, Check.exprs, Bool.and_eq_true] at hwork
      exact ⟨hwork.right, found_after_expr hmacros hwork.left hstate hfirst⟩
  | entriesKey =>
      simp only [Work.asksAbout, Check.entries, Bool.and_eq_true] at hwork
      exact ⟨hwork.left.left, hstate⟩
  | entriesValue hkey =>
      simp only [Work.asksAbout, Check.entries, Bool.and_eq_true] at hwork
      exact ⟨hwork.left.right, found_after_expr hmacros hwork.left.left hstate hkey⟩
  | entriesRest hkey hvalue =>
      simp only [Work.asksAbout, Check.entries, Bool.and_eq_true] at hwork
      have hbetween := found_after_expr hmacros hwork.left.left hstate hkey
      exact ⟨hwork.right, found_after_expr hmacros hwork.left.right hbetween hvalue⟩
  | namedFirst =>
      simp only [Work.asksAbout, Check.named, Bool.and_eq_true] at hwork
      exact ⟨hwork.left, hstate⟩
  | namedRest hfirst =>
      simp only [Work.asksAbout, Check.named, Bool.and_eq_true] at hwork
      exact ⟨hwork.right, found_after_expr hmacros hwork.left hstate hfirst⟩
  | callParams hfind =>
      rw [hfree] at hfind
      cases hfind
  | callBody hfind =>
      rw [hfree] at hfind
      cases hfind
  | callText => exact absurd rfl hwork.left
  | paramsGiven => exact hwork.elim
  | paramsNamed => exact hwork.elim
  | paramsDefault => exact hwork.elim
  | paramsDefaulted => exact hwork.elim
  | paramsNull => exact hwork.elim
  | output => exact ⟨hwork, hstate⟩
  | branch =>
      simp only [Work.asksAbout, NodeCheck.node, Bool.and_eq_true] at hwork
      exact ⟨hwork, hstate⟩
  | loopItems =>
      simp only [Work.asksAbout, NodeCheck.node, Bool.and_eq_true] at hwork
      exact ⟨hwork.left.left.right, hstate⟩
  | loopEmpty hitems =>
      simp only [Work.asksAbout, NodeCheck.node, Bool.and_eq_true] at hwork
      exact ⟨hwork.right, found_after_expr hmacros hwork.left.left.right hstate hitems⟩
  | loopRounds hitems =>
      simp only [Work.asksAbout, NodeCheck.node, Bool.and_eq_true] at hwork
      exact ⟨⟨hwork.left.left.left, hwork.left.right⟩,
        found_after_expr hmacros hwork.left.left.right hstate hitems⟩
  | assign =>
      simp only [Work.asksAbout, NodeCheck.node, Bool.and_eq_true] at hwork
      exact ⟨hwork.right, hstate⟩
  | run => exact ⟨hwork, hstate⟩
  | nodesFirst =>
      simp only [Work.asksAbout, NodeCheck.nodes, Bool.and_eq_true] at hwork
      exact ⟨hwork.left, hstate⟩
  | nodesRest hfirst =>
      simp only [Work.asksAbout, NodeCheck.nodes, Bool.and_eq_true] at hwork
      exact ⟨hwork.right, found_after (exec_closed (hnodes _) _ hwork.left) hfirst hstate⟩
  | otherwise => exact ⟨hwork.right, hstate⟩
  | branchCondition =>
      simp only [Work.asksAbout, NodeCheck.branches, Bool.and_eq_true] at hwork
      exact ⟨hwork.left.left.left, hstate⟩
  | branchTaken hcondition =>
      simp only [Work.asksAbout, NodeCheck.branches, Bool.and_eq_true] at hwork
      exact ⟨hwork.left.left.right, found_after_expr hmacros hwork.left.left.left hstate hcondition⟩
  | branchSkipped hcondition =>
      simp only [Work.asksAbout, NodeCheck.branches, Bool.and_eq_true] at hwork
      exact ⟨⟨hwork.left.right, hwork.right⟩,
        found_after_expr hmacros hwork.left.left.left hstate hcondition⟩
  | round hbind =>
      refine ⟨hwork.right, ?_⟩
      have hnone := get?_of_bind hbind hwork.left
      change find? subject (Keyed.put "loop" _ _ :: _) = found
      unfold find?
      rw [Keyed.get?_put_ne _ _ hloop, hnone]
      exact hstate
  | @roundsRest _ _ _ b inner _ _ _ _ _ _ _ hround =>
      have hbody := execAll_closed (hnodes b) inner hwork.right
      exact ⟨hwork, found_after ((hnodes b).frame _ hbody) hround hstate⟩

theorem AsksAbout.reaches (hmacros : scene.template.body.macros = []) (hloop : subject ≠ "loop")
    {p q : Point} (h : AsksAbout subject found p) (hreaches : Reaches scene p q) :
    AsksAbout subject found q := by
  induction hreaches with
  | refl => exact h
  | tail _ hpart ih => exact ih.part hmacros hloop hpart

theorem AsksAbout.passes (hmacros : scene.template.body.macros = []) (hloop : subject ≠ "loop")
    {p : Point} (h : AsksAbout subject found p) {text : String} (hpasses : Passes scene p text) :
    found = some (.str text) := by
  rcases hpasses with ⟨budget, name, call, state, hreaches, -, hargument⟩
  exact (h.reaches hmacros hloop hreaches).work.right _ hargument

end Parts

end Subject

end Template
end TransformChain
