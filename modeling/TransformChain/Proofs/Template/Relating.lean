import TransformChain.Proofs.Template.Checks
import TransformChain.Proofs.Template.Points

/-!
# Relations that evaluation keeps

Two runs of one template, in contexts and with calls of their own.  A relation between the actions
of both runs is kept when it holds of the actions that only look, and of one action after the other
wherever it holds of both.  Evaluation is made of such steps except where functions and macros are
called, variables set and frames opened, and where an expression is tested for being defined.
-/

namespace TransformChain
namespace Template

open Template.Action

/-!
## Tests for being defined
-/

namespace TestsVariables

mutual

def expr : Expr → Bool
  | .lit _ => true
  | .var _ => true
  | .list items => exprs items
  | .dict entries => TestsVariables.entries entries
  | .attr base _ => expr base
  | .index base key => expr base && expr key
  | .call callee args keywords => expr callee && exprs args && named keywords
  | .filter operand _ args => expr operand && exprs args
  | .test (.var _) _ _ => true
  | .test operand name _ => !isDefinedTest name && expr operand
  | .not operand => expr operand
  | .neg operand => expr operand
  | .binary _ left right => expr left && expr right
  | .cond condition yes none => expr condition && expr yes
  | .cond condition yes (some no) => expr condition && expr yes && expr no

def exprs : List Expr → Bool
  | [] => true
  | e :: rest => expr e && exprs rest

def entries : List (Expr × Expr) → Bool
  | [] => true
  | (key, e) :: rest => expr key && expr e && entries rest

def named : List (String × Expr) → Bool
  | [] => true
  | (_, e) :: rest => expr e && named rest

end

mutual

def node : Node → Bool
  | .text _ => true
  | .output e => expr e
  | .branch branches otherwise => TestsVariables.branches branches && nodes otherwise
  | .loop _ iterable body empty => expr iterable && nodes body && nodes empty
  | .assign _ e => expr e
  | .run e => expr e

def nodes : List Node → Bool
  | [] => true
  | n :: rest => node n && nodes rest

def branches : List (Expr × List Node) → Bool
  | [] => true
  | (condition, body) :: rest => expr condition && nodes body && branches rest

end

def macroDef (target : MacroDef) : Bool :=
  target.params.all (fun p => p.2.all expr) && nodes target.body

end TestsVariables

/-!
## Kept relations
-/

/-- The relation may be kept for the expressions that read some variables only, and it may depend on
nothing being tested for being defined that can fail otherwise. -/
structure KeptFor (reads : String → Bool) (attempts : Bool)
    (R : {α : Type} → Action α → Action α → Prop) : Prop where
  pure : ∀ {α : Type} (value : α), R (Pure.pure value : Action α) (Pure.pure value)
  fail : ∀ {α : Type} (error : Error), R (Action.fail error : Action α) (Action.fail error)
  bind : ∀ {α β : Type} {a b : Action α} {f g : α → Action β}, R a b →
    (∀ value, R (f value) (g value)) → R (a >>= f) (b >>= g)
  lookup : ∀ name, reads name = true → R (Action.lookup name) (Action.lookup name)
  succeeds : attempts = true → ∀ {α : Type} {a b : Action α}, R a b →
    R (Action.succeeds a) (Action.succeeds b)

section Rules

variable {reads : String → Bool} {attempts : Bool}
  {R : {α : Type} → Action α → Action α → Prop}
variable {template : Template} {one two : Context} {calls others : Calls}

theorem KeptFor.ofExcept (h : KeptFor reads attempts R) (result : Except Error α) :
    R (Action.ofExcept result) (Action.ofExcept result) := by
  cases result with
  | ok value => exact h.pure value
  | error e => exact h.fail e

theorem ite_kept {condition : Prop} [Decidable condition] {a b c d : Action α} (hyes : R a b)
    (hno : R c d) : R (if condition then a else c) (if condition then b else d) := by
  by_cases h : condition
  · rw [if_pos h, if_pos h]
    exact hyes
  · rw [if_neg h, if_neg h]
    exact hno

theorem KeptFor.operated (h : KeptFor reads attempts R) (result : Operated α) :
    R (Action.ofExcept (Scene.operated ⟨template, one⟩ result))
      (Action.ofExcept (Scene.operated ⟨template, two⟩ result)) := by
  cases result with
  | ok value => exact h.pure value
  | error fault => exact h.fail _

theorem KeptFor.evalVar (h : KeptFor reads attempts R) {name : String} (hname : reads name = true) :
    R (Template.evalVar ⟨template, one⟩ name) (Template.evalVar ⟨template, two⟩ name) := by
  unfold Template.evalVar
  apply h.bind (h.lookup name hname)
  intro found
  cases found with
  | none => exact h.fail _
  | some value => exact h.pure value

/-!
## Functions
-/

theorem KeptFor.declareAll (h : KeptFor reads attempts R)
    (hdeclare : ∀ template column,
      R (Action.declare template column) (Action.declare template column))
    (template : String) (columns : List Column) :
    R (Action.declareAll template columns) (Action.declareAll template columns) := by
  induction columns with
  | nil => exact h.pure ()
  | cons column rest ih => exact h.bind (hdeclare template column) fun _ => ih

/-- Functions other than the one that renders a text do nothing but declare columns. -/
theorem KeptFor.function (h : KeptFor reads attempts R)
    (hdeclare : ∀ template column,
      R (Action.declare template column) (Action.declare template column))
    (hpure : ∀ name call, R (Action.ofExcept (Function.pure ⟨template, one⟩ name call))
      (Action.ofExcept (Function.pure ⟨template, two⟩ name call)))
    (body body' : List Node → Action String) {name : String} (hname : name ≠ "render")
    (call : Function.Call) :
    R (Function.call ⟨template, one⟩ body name call)
      (Function.call ⟨template, two⟩ body' name call) := by
  unfold Function.call
  split
  case h_1 =>
    apply h.bind (h.ofExcept _)
    intro value
    exact h.bind (hdeclare _ _) fun _ => h.pure _
  case h_2 =>
    apply h.bind (h.ofExcept _)
    intro value
    apply h.bind (h.operated _)
    intro columns
    exact h.bind (h.declareAll hdeclare _ _) fun _ => h.pure _
  case h_3 => exact absurd rfl hname
  case h_4 => exact hpure _ _

/-!
## Macros and rendered texts
-/

def defaultsTaken : List MacroParameter → List Value → List (String × Value) → List Expr
  | [], _, _ => []
  | _ :: params, _ :: args, named => defaultsTaken params args named
  | (name, default) :: params, [], named =>
      match Keyed.get? name named, default with
      | some _, _ => defaultsTaken params [] (Keyed.erase name named)
      | none, some expr => expr :: defaultsTaken params [] named
      | none, none => defaultsTaken params [] named

theorem mem_params_of_taken {e : Expr} :
    ∀ {params : List MacroParameter} {args : List Value} {named : List (String × Value)},
      e ∈ defaultsTaken params args named → ∃ p ∈ params, p.2 = some e := by
  intro params
  induction params with
  | nil =>
      intro args named h
      cases h
  | cons param params ih =>
      rcases param with ⟨name, default⟩
      intro args named h
      have hrest {args named} (h : e ∈ defaultsTaken params args named) :
          ∃ p ∈ (name, default) :: params, p.2 = some e := by
        obtain ⟨p, hp, he⟩ := ih h
        exact ⟨p, List.mem_cons_of_mem _ hp, he⟩
      cases args with
      | cons value args => exact hrest h
      | nil =>
          simp only [defaultsTaken] at h
          cases hget : Keyed.get? name named with
          | some value =>
              rw [hget] at h
              exact hrest h
          | none =>
              rw [hget] at h
              cases default with
              | none => exact hrest h
              | some expr =>
                  rcases List.mem_cons.mp h with rfl | h
                  · exact ⟨(name, some e), List.mem_cons_self, rfl⟩
                  · exact hrest h

theorem bindParameters_kept (h : KeptFor reads attempts R) :
    ∀ (params : List MacroParameter) (args : List Value) (named : List (String × Value))
      (frame : Frame),
      (∀ e ∈ defaultsTaken params args named, R (calls.value e) (others.value e)) →
      R (bindParameters calls params args named frame)
        (bindParameters others params args named frame) := by
  intro params
  induction params with
  | nil =>
      intro args named frame _
      simp only [bindParameters]
      exact h.pure _
  | cons param params ih =>
      rcases param with ⟨name, default⟩
      intro args named frame hdefaults
      cases args with
      | cons value args =>
          simp only [bindParameters]
          exact ih args named _ hdefaults
      | nil =>
          simp only [bindParameters]
          simp only [defaultsTaken] at hdefaults
          cases hget : Keyed.get? name named with
          | some value =>
              rw [hget] at hdefaults
              exact ih [] _ _ hdefaults
          | none =>
              rw [hget] at hdefaults
              cases default with
              | none => exact ih [] named _ hdefaults
              | some e =>
                  apply h.bind (hdefaults e List.mem_cons_self)
                  exact fun value => ih [] named _ fun e he =>
                    hdefaults e (List.mem_cons_of_mem _ he)

/-- A macro call is made of the defaults it takes and its body, one level deeper in frames of its
own. -/
theorem callMacro_kept (h : KeptFor reads attempts R) {target : MacroDef} {call : Function.Call}
    (hdefaults : ∀ e ∈ defaultsTaken target.params call.positional (Keyed.ofPairs call.named),
      R (calls.value e) (others.value e))
    (hbody : ∀ frame,
      R (Action.nested template.name (Action.isolated frame (calls.body target.body)))
        (Action.nested template.name (Action.isolated frame (others.body target.body)))) :
    R (callMacro ⟨template, one⟩ calls target call)
      (callMacro ⟨template, two⟩ others target call) := by
  unfold callMacro
  apply ite_kept (h.fail _)
  apply h.bind (bindParameters_kept h _ _ _ _ hdefaults)
  rintro ⟨frame, unused⟩
  cases unused with
  | cons entry rest => exact h.fail _
  | nil => exact h.bind (hbody frame) fun text => h.pure _

theorem renderText_kept (h : KeptFor reads attempts R)
    (hbody : ∀ ns, R (Action.nested template.name (calls.body ns))
      (Action.nested template.name (others.body ns))) (call : Function.Call) :
    R (Function.renderText ⟨template, one⟩ calls.body call)
      (Function.renderText ⟨template, two⟩ others.body call) := by
  unfold Function.renderText
  apply h.bind (h.ofExcept _)
  intro text
  apply h.bind (h.ofExcept _)
  intro parsed
  apply ite_kept
  · exact h.bind (hbody parsed.nodes) fun result => h.pure _
  · exact h.fail _

theorem callByName_kept (h : KeptFor reads attempts R)
    (hdeclare : ∀ template column,
      R (Action.declare template column) (Action.declare template column))
    (hpure : ∀ name call, R (Action.ofExcept (Function.pure ⟨template, one⟩ name call))
      (Action.ofExcept (Function.pure ⟨template, two⟩ name call)))
    {name : String}
    (hrender : name = "render" → ∀ ns, R (Action.nested template.name (calls.body ns))
      (Action.nested template.name (others.body ns)))
    (hcalled : ∀ target, template.findMacro? name = some target →
      ∀ call, R (callMacro ⟨template, one⟩ calls target call)
        (callMacro ⟨template, two⟩ others target call))
    (call : Function.Call) :
    R (callByName ⟨template, one⟩ calls name call)
      (callByName ⟨template, two⟩ others name call) := by
  unfold callByName
  cases hfind : template.findMacro? name with
  | some target => exact hcalled target hfind call
  | none =>
      by_cases hname : name = "render"
      · subst hname
        exact renderText_kept h (hrender rfl) call
      · exact h.function hdeclare hpure _ _ hname call

/-!
## Expressions
-/

section Expressions

variable {check : Check}

def KeptCalls (R : {α : Type} → Action α → Action α → Prop) (template : Template)
    (one two : Context) (calls others : Calls) (check : Check) : Prop :=
  ∀ {name args keywords}, check.calls name args keywords = true →
    ∀ call, R (callByName ⟨template, one⟩ calls name call)
      (callByName ⟨template, two⟩ others name call)

theorem filterOperand_kept (h : KeptFor check.reads attempts R) (name : String) {operand : Expr}
    (hcheck : check.expr operand = true)
    (heval : R (eval ⟨template, one⟩ calls operand) (eval ⟨template, two⟩ others operand)) :
    R (filterOperand ⟨template, one⟩ calls name operand)
      (filterOperand ⟨template, two⟩ others name operand) := by
  cases operand with
  | var subject =>
      unfold filterOperand
      apply ite_kept
      · exact h.bind (h.lookup subject hcheck) fun found => h.pure _
      · exact h.evalVar hcheck
  | _ => exact heval

/-- What is no variable may be tested for being defined only if attempts are kept. -/
theorem testOutcome_kept (h : KeptFor check.reads attempts R) (name : String) (negated : Bool)
    {operand : Expr} (hcheck : check.expr operand = true)
    (htests : attempts = false → TestsVariables.expr (.test operand name negated) = true)
    (heval : (attempts = false → TestsVariables.expr operand = true) →
      R (eval ⟨template, one⟩ calls operand) (eval ⟨template, two⟩ others operand)) :
    R (testOutcome ⟨template, one⟩ calls name operand)
      (testOutcome ⟨template, two⟩ others name operand) := by
  by_cases hvar : ∃ subject, operand = .var subject
  · rcases hvar with ⟨subject, rfl⟩
    unfold testOutcome
    apply ite_kept
    · exact h.bind (h.lookup subject hcheck) fun found => h.pure _
    · exact h.bind (h.evalVar hcheck) fun value => h.operated _
  · have hoperand : ∀ subject, operand ≠ .var subject := fun subject heq => hvar ⟨subject, heq⟩
    have hplain : attempts = false →
        isDefinedTest name = false ∧ TestsVariables.expr operand = true := by
      intro hattempts
      have htest := htests hattempts
      cases operand with
      | var subject => exact absurd rfl (hoperand subject)
      | _ => simpa [TestsVariables.expr] using htest
    have hrelated := heval fun hattempts => (hplain hattempts).right
    cases hname : isDefinedTest name with
    | false =>
        rw [testOutcome_of_ne_var hoperand hname, testOutcome_of_ne_var hoperand hname]
        exact h.bind hrelated fun value => h.operated _
    | true =>
        rw [testOutcome_defined hoperand hname, testOutcome_defined hoperand hname]
        have hattempts : attempts = true := by
          cases attempts with
          | true => rfl
          | false => exact absurd ((hplain rfl).left.symm.trans hname) Bool.false_ne_true
        exact h.bind (h.succeeds hattempts hrelated) fun found => h.pure _

theorem callRest_kept (h : KeptFor reads attempts R) {callee : Expr}
    (hmethod : ∀ base name, callee = .attr base name →
      R (eval ⟨template, one⟩ calls base) (eval ⟨template, two⟩ others base))
    (hcall : ∀ name, callee = .var name → ∀ call,
      R (callByName ⟨template, one⟩ calls name call) (callByName ⟨template, two⟩ others name call))
    (positional : List Value) (named : List (String × Value)) :
    R (callRest ⟨template, one⟩ calls callee positional named)
      (callRest ⟨template, two⟩ others callee positional named) := by
  cases callee with
  | attr base name => exact h.bind (hmethod base name rfl) fun receiver => h.operated _
  | var name => exact hcall name rfl _
  | _ => exact h.fail _

theorem binaryRest_kept (h : KeptFor reads attempts R) (op : BinaryOp) (value : Value)
    {right : Expr}
    (hright : R (eval ⟨template, one⟩ calls right) (eval ⟨template, two⟩ others right)) :
    R (binaryRest ⟨template, one⟩ calls op value right)
      (binaryRest ⟨template, two⟩ others op value right) := by
  unfold binaryRest
  apply ite_kept
  · exact h.bind hright fun w => ite_kept (h.pure w) (h.operated _)
  · exact h.pure value

theorem condRest_kept (h : KeptFor reads attempts R) (value : Value) {yes : Expr} {no : Option Expr}
    (hyes : R (eval ⟨template, one⟩ calls yes) (eval ⟨template, two⟩ others yes))
    (hno : ∀ e, no = some e → R (eval ⟨template, one⟩ calls e) (eval ⟨template, two⟩ others e)) :
    R (condRest ⟨template, one⟩ calls value yes no)
      (condRest ⟨template, two⟩ others value yes no) := by
  cases no with
  | none => exact ite_kept hyes (h.pure _)
  | some no => exact ite_kept hyes (hno no rfl)

mutual

theorem eval_kept (h : KeptFor check.reads attempts R)
    (hcalls : KeptCalls R template one two calls others check) :
    ∀ e : Expr, check.expr e = true → (attempts = false → TestsVariables.expr e = true) →
      R (eval ⟨template, one⟩ calls e) (eval ⟨template, two⟩ others e)
  | .lit value, _, _ => by
      simp only [eval]
      exact h.pure value
  | .var name, hcheck, _ => by
      simp only [eval]
      exact h.evalVar hcheck
  | .list items, hcheck, htests => by
      simp only [eval]
      exact h.bind (evalAll_kept h hcalls items hcheck htests) fun values => h.pure _
  | .dict entries, hcheck, htests => by
      simp only [eval]
      exact h.bind (evalEntries_kept h hcalls entries hcheck htests) fun pairs => h.pure _
  | .attr base name, hcheck, htests => by
      simp only [eval]
      exact h.bind (eval_kept h hcalls base hcheck htests) fun value => h.operated _
  | .index base key, hcheck, htests => by
      simp only [Check.expr, Bool.and_eq_true] at hcheck
      simp only [TestsVariables.expr, Bool.and_eq_true, imp_and] at htests
      simp only [eval]
      apply h.bind (eval_kept h hcalls base hcheck.left htests.left)
      intro value
      exact h.bind (eval_kept h hcalls key hcheck.right htests.right) fun place => h.operated _
  | .call callee args keywords, hcheck, htests => by
      obtain ⟨hargs, hkeywords⟩ := Check.of_call hcheck
      simp only [TestsVariables.expr, Bool.and_eq_true, imp_and] at htests
      rw [eval_call, eval_call]
      apply h.bind (evalAll_kept h hcalls args hargs htests.left.right)
      intro positional
      apply h.bind (evalNamed_kept h hcalls keywords hkeywords htests.right)
      intro named
      cases callee with
      | attr base name =>
          simp only [Check.expr, Bool.and_eq_true] at hcheck
          exact h.bind (eval_kept h hcalls base hcheck.left.left htests.left.left) fun receiver =>
            h.operated _
      | var name =>
          simp only [Check.expr, Bool.and_eq_true] at hcheck
          exact hcalls hcheck.left.left _
      | _ => exact h.fail _
  | .filter operand name args, hcheck, htests => by
      simp only [Check.expr, Bool.and_eq_true] at hcheck
      simp only [TestsVariables.expr, Bool.and_eq_true, imp_and] at htests
      rw [eval_filter, eval_filter]
      apply h.bind (filterOperand_kept h name hcheck.left
        (eval_kept h hcalls operand hcheck.left htests.left))
      intro value
      exact h.bind (evalAll_kept h hcalls args hcheck.right htests.right) fun values =>
        h.operated _
  | .test operand name negated, hcheck, htests => by
      simp only [Check.expr] at hcheck
      rw [eval_test, eval_test]
      apply h.bind
        (testOutcome_kept h name negated hcheck htests (eval_kept h hcalls operand hcheck))
      exact fun passed => h.pure _
  | .not operand, hcheck, htests => by
      simp only [eval]
      exact h.bind (eval_kept h hcalls operand hcheck htests) fun value => h.pure _
  | .neg operand, hcheck, htests => by
      simp only [eval]
      exact h.bind (eval_kept h hcalls operand hcheck htests) fun value => h.operated _
  | .binary op left right, hcheck, htests => by
      simp only [Check.expr, Bool.and_eq_true] at hcheck
      simp only [TestsVariables.expr, Bool.and_eq_true, imp_and] at htests
      rw [eval_binary, eval_binary]
      apply h.bind (eval_kept h hcalls left hcheck.left htests.left)
      intro value
      exact binaryRest_kept h op value (eval_kept h hcalls right hcheck.right htests.right)
  | .cond condition yes none, hcheck, htests => by
      simp only [Check.expr, Bool.and_eq_true] at hcheck
      simp only [TestsVariables.expr, Bool.and_eq_true, imp_and] at htests
      rw [eval_cond, eval_cond]
      apply h.bind (eval_kept h hcalls condition hcheck.left htests.left)
      intro value
      exact condRest_kept h value (eval_kept h hcalls yes hcheck.right htests.right) nofun
  | .cond condition yes (some no), hcheck, htests => by
      simp only [Check.expr, Bool.and_eq_true] at hcheck
      simp only [TestsVariables.expr, Bool.and_eq_true, imp_and] at htests
      rw [eval_cond, eval_cond]
      apply h.bind (eval_kept h hcalls condition hcheck.left.left htests.left.left)
      intro value
      apply condRest_kept h value (eval_kept h hcalls yes hcheck.left.right htests.left.right)
      intro e he
      cases he
      exact eval_kept h hcalls no hcheck.right htests.right

theorem evalAll_kept (h : KeptFor check.reads attempts R)
    (hcalls : KeptCalls R template one two calls others check) :
    ∀ es : List Expr, check.exprs es = true →
      (attempts = false → TestsVariables.exprs es = true) →
      R (evalAll ⟨template, one⟩ calls es) (evalAll ⟨template, two⟩ others es)
  | [], _, _ => by
      simp only [evalAll]
      exact h.pure _
  | e :: rest, hcheck, htests => by
      simp only [Check.exprs, Bool.and_eq_true] at hcheck
      simp only [TestsVariables.exprs, Bool.and_eq_true, imp_and] at htests
      simp only [evalAll]
      apply h.bind (eval_kept h hcalls e hcheck.left htests.left)
      intro value
      exact h.bind (evalAll_kept h hcalls rest hcheck.right htests.right) fun values => h.pure _

theorem evalEntries_kept (h : KeptFor check.reads attempts R)
    (hcalls : KeptCalls R template one two calls others check) :
    ∀ es : List (Expr × Expr), check.entries es = true →
      (attempts = false → TestsVariables.entries es = true) →
      R (evalEntries ⟨template, one⟩ calls es) (evalEntries ⟨template, two⟩ others es)
  | [], _, _ => by
      simp only [evalEntries]
      exact h.pure _
  | (key, e) :: rest, hcheck, htests => by
      simp only [Check.entries, Bool.and_eq_true] at hcheck
      simp only [TestsVariables.entries, Bool.and_eq_true, imp_and] at htests
      simp only [evalEntries]
      apply h.bind (eval_kept h hcalls key hcheck.left.left htests.left.left)
      intro name
      apply h.bind (eval_kept h hcalls e hcheck.left.right htests.left.right)
      intro value
      exact h.bind (evalEntries_kept h hcalls rest hcheck.right htests.right) fun pairs => h.pure _

theorem evalNamed_kept (h : KeptFor check.reads attempts R)
    (hcalls : KeptCalls R template one two calls others check) :
    ∀ es : List (String × Expr), check.named es = true →
      (attempts = false → TestsVariables.named es = true) →
      R (evalNamed ⟨template, one⟩ calls es) (evalNamed ⟨template, two⟩ others es)
  | [], _, _ => by
      simp only [evalNamed]
      exact h.pure _
  | (name, e) :: rest, hcheck, htests => by
      simp only [Check.named, Bool.and_eq_true] at hcheck
      simp only [TestsVariables.named, Bool.and_eq_true, imp_and] at htests
      simp only [evalNamed]
      apply h.bind (eval_kept h hcalls e hcheck.left htests.left)
      intro value
      exact h.bind (evalNamed_kept h hcalls rest hcheck.right htests.right) fun pairs => h.pure _

end

end Expressions

/-!
## Nodes
-/

section Nodes

variable {check : NodeCheck}

/-- Besides the calls, printing what passes, setting the variables that pass, and opening frames
keep the relation. -/
structure KeptNodes (attempts : Bool) (R : {α : Type} → Action α → Action α → Prop)
    (template : Template) (one two : Context) (calls others : Calls) (check : NodeCheck) : Prop where
  kept : KeptFor check.reads attempts R
  functions : KeptCalls R template one two calls others check.toCheck
  prints : ∀ {e}, check.prints e = true →
    R (eval ⟨template, one⟩ calls e) (eval ⟨template, two⟩ others e)
  sets : ∀ {name}, check.sets name = true → ∀ value,
    R (Action.assign name value) (Action.assign name value)
  frame : ∀ (frame : Frame) {a b : Action String}, R a b →
    R (Action.inFrame frame a) (Action.inFrame frame b)

theorem KeptNodes.expr (h : KeptNodes attempts R template one two calls others check) {e : Expr}
    (hcheck : check.expr e = true) (htests : attempts = false → TestsVariables.expr e = true) :
    R (eval ⟨template, one⟩ calls e) (eval ⟨template, two⟩ others e) :=
  eval_kept h.kept h.functions e hcheck htests

theorem KeptFor.runLoop (h : KeptFor reads attempts R) {target : LoopTarget}
    {body other : Action String}
    (hround : ∀ frame, R (Action.inFrame frame body) (Action.inFrame frame other)) (length : Nat)
    (items : List Value) :
    ∀ index, R (runLoop ⟨template, one⟩ target body length index items)
      (runLoop ⟨template, two⟩ target other length index items) := by
  induction items with
  | nil =>
      intro index
      exact h.pure _
  | cons item rest ih =>
      intro index
      simp only [Template.runLoop]
      apply h.bind (h.operated _)
      intro bindings
      apply h.bind (hround _)
      intro text
      exact h.bind (ih (index + 1)) fun more => h.pure _

mutual

theorem exec_kept (h : KeptNodes attempts R template one two calls others check) :
    ∀ n : Node, check.node n = true → (attempts = false → TestsVariables.node n = true) →
      R (exec ⟨template, one⟩ calls n) (exec ⟨template, two⟩ others n)
  | .text content, _, _ => by
      simp only [exec]
      exact h.kept.pure _
  | .output e, hcheck, htests => by
      simp only [NodeCheck.node, Bool.or_eq_true] at hcheck
      simp only [exec]
      rcases hcheck with hprints | hexpr
      · exact h.kept.bind (h.prints hprints) fun value => h.kept.pure _
      · exact h.kept.bind (h.expr hexpr htests) fun value => h.kept.pure _
  | .branch branches otherwise, hcheck, htests => by
      simp only [NodeCheck.node, Bool.and_eq_true] at hcheck
      simp only [TestsVariables.node, Bool.and_eq_true, imp_and] at htests
      simp only [exec]
      exact execBranches_kept h branches (execAll_kept h otherwise hcheck.right htests.right)
        hcheck.left htests.left
  | .loop target iterable body empty, hcheck, htests => by
      simp only [NodeCheck.node, Bool.and_eq_true] at hcheck
      simp only [TestsVariables.node, Bool.and_eq_true, imp_and] at htests
      have hbody := execAll_kept h body hcheck.left.right htests.left.right
      simp only [exec]
      apply h.kept.bind (h.expr hcheck.left.left.right htests.left.left)
      intro value
      apply h.kept.bind (h.kept.operated _)
      intro items
      apply ite_kept (execAll_kept h empty hcheck.right htests.right)
      exact h.kept.runLoop (fun frame => h.frame frame hbody) _ items 0
  | .assign name e, hcheck, htests => by
      simp only [NodeCheck.node, Bool.and_eq_true] at hcheck
      simp only [exec]
      apply h.kept.bind (h.expr hcheck.right htests)
      intro value
      exact h.kept.bind (h.sets hcheck.left value) fun _ => h.kept.pure _
  | .run e, hcheck, htests => by
      simp only [NodeCheck.node] at hcheck
      simp only [exec]
      exact h.kept.bind (h.expr hcheck htests) fun _ => h.kept.pure _

theorem execAll_kept (h : KeptNodes attempts R template one two calls others check) :
    ∀ ns : List Node, check.nodes ns = true →
      (attempts = false → TestsVariables.nodes ns = true) →
      R (execAll ⟨template, one⟩ calls ns) (execAll ⟨template, two⟩ others ns)
  | [], _, _ => by
      simp only [execAll]
      exact h.kept.pure _
  | n :: rest, hcheck, htests => by
      simp only [NodeCheck.nodes, Bool.and_eq_true] at hcheck
      simp only [TestsVariables.nodes, Bool.and_eq_true, imp_and] at htests
      simp only [execAll]
      apply h.kept.bind (exec_kept h n hcheck.left htests.left)
      intro text
      exact h.kept.bind (execAll_kept h rest hcheck.right htests.right) fun more => h.kept.pure _

theorem execBranches_kept (h : KeptNodes attempts R template one two calls others check) :
    ∀ (branches : List (Expr × List Node)) {otherwise other : Action String}, R otherwise other →
      check.branches branches = true →
      (attempts = false → TestsVariables.branches branches = true) →
      R (execBranches ⟨template, one⟩ calls branches otherwise)
        (execBranches ⟨template, two⟩ others branches other)
  | [], otherwise, other, hotherwise, _, _ => by
      simp only [execBranches]
      exact hotherwise
  | (condition, body) :: rest, otherwise, other, hotherwise, hcheck, htests => by
      simp only [NodeCheck.branches, Bool.and_eq_true] at hcheck
      simp only [TestsVariables.branches, Bool.and_eq_true, imp_and] at htests
      simp only [execBranches]
      apply h.kept.bind (h.expr hcheck.left.left htests.left.left)
      intro value
      exact ite_kept (execAll_kept h body hcheck.left.right htests.left.right)
        (execBranches_kept h rest hotherwise hcheck.right htests.right)

end

end Nodes

end Rules

end Template
end TransformChain
