import TransformChain.Template.Tree

/-!
# Checks of template trees

What can be said about a template before it is rendered: the variables it reads, the functions it
calls, the variables it sets and the expressions it prints.
-/

namespace TransformChain
namespace Template

/-- The variables that may be read and the calls by name that may be made. -/
structure Check where
  reads : String → Bool
  calls : String → List Expr → List (String × Expr) → Bool

namespace Check

mutual

def expr (check : Check) : Expr → Bool
  | .lit _ => true
  | .var name => check.reads name
  | .list items => check.exprs items
  | .dict entries => check.entries entries
  | .attr base _ => check.expr base
  | .index base key => check.expr base && check.expr key
  | .call (.var name) args keywords =>
      check.calls name args keywords && check.exprs args && check.named keywords
  | .call callee args keywords =>
      check.expr callee && check.exprs args && check.named keywords
  | .filter operand _ args => check.expr operand && check.exprs args
  | .test operand _ _ => check.expr operand
  | .not operand => check.expr operand
  | .neg operand => check.expr operand
  | .binary _ left right => check.expr left && check.expr right
  | .cond condition yes none => check.expr condition && check.expr yes
  | .cond condition yes (some no) =>
      check.expr condition && check.expr yes && check.expr no

def exprs (check : Check) : List Expr → Bool
  | [] => true
  | expr :: rest => check.expr expr && check.exprs rest

def entries (check : Check) : List (Expr × Expr) → Bool
  | [] => true
  | (key, expr) :: rest => check.expr key && check.expr expr && check.entries rest

def named (check : Check) : List (String × Expr) → Bool
  | [] => true
  | (_, expr) :: rest => check.expr expr && check.named rest

end

theorem of_call {check : Check} {callee : Expr} {args : List Expr}
    {keywords : List (String × Expr)} (h : check.expr (.call callee args keywords) = true) :
    check.exprs args = true ∧ check.named keywords = true := by
  cases callee <;> simp only [expr, Bool.and_eq_true] at h <;> exact ⟨h.left.right, h.right⟩

theorem of_cond {check : Check} {condition yes : Expr} {no : Option Expr}
    (h : check.expr (.cond condition yes no) = true) :
    check.expr condition = true ∧ check.expr yes = true := by
  cases no with
  | none =>
      simp only [expr, Bool.and_eq_true] at h
      exact h
  | some no =>
      simp only [expr, Bool.and_eq_true] at h
      exact h.left

end Check

def LoopTarget.names : LoopTarget → List String
  | single name => [name]
  | pair first second => [first, second]

/-- A check of nodes: besides the expressions, the variables that are set.  An expression that does
not pass may still be printed as a whole. -/
structure NodeCheck extends Check where
  sets : String → Bool
  prints : Expr → Bool

namespace NodeCheck

mutual

def node (check : NodeCheck) : Node → Bool
  | .text _ => true
  | .output expr => check.prints expr || check.expr expr
  | .branch branches otherwise => check.branches branches && check.nodes otherwise
  | .loop target iterable body empty =>
      target.names.all check.sets && check.expr iterable && check.nodes body && check.nodes empty
  | .assign name expr => check.sets name && check.expr expr
  | .run expr => check.expr expr

def nodes (check : NodeCheck) : List Node → Bool
  | [] => true
  | node :: rest => check.node node && check.nodes rest

def branches (check : NodeCheck) : List (Expr × List Node) → Bool
  | [] => true
  | (condition, body) :: rest =>
      check.expr condition && check.nodes body && check.branches rest

end

end NodeCheck

def NodeCheck.macroDef (check : NodeCheck) (target : MacroDef) : Bool :=
  target.params.all (fun p =>
    match p.2 with
    | none => true
    | some default => check.expr default) &&
    check.nodes target.body

theorem mem_of_findMacro? {template : Template} {name : String} {target : MacroDef}
    (h : template.findMacro? name = some target) :
    target ∈ template.body.macros ∧ target.name = name := by
  have hname : (target.name == name) = true :=
    List.find?_some (p := fun m : MacroDef => m.name == name) h
  exact ⟨List.mem_of_find?_eq_some h, eq_of_beq hname⟩

/-!
## Checks of calls alone
-/

/-- A check of the calls by name, which passes everything else. -/
def callCheck (calls : String → List Expr → List (String × Expr) → Bool) : NodeCheck where
  reads _ := true
  calls := calls
  sets _ := true
  prints _ := false

def AllPass (calls : String → List Expr → List (String × Expr) → Bool) : Prop :=
  ∀ name args keywords, calls name args keywords = true

section Passing

variable {calls : String → List Expr → List (String × Expr) → Bool}

mutual

theorem callCheck_expr (h : AllPass calls) : ∀ e : Expr, (callCheck calls).expr e = true
  | .lit _ => rfl
  | .var _ => rfl
  | .list items => callCheck_exprs h items
  | .dict entries => callCheck_entries h entries
  | .attr base _ => callCheck_expr h base
  | .index base key => by simp [Check.expr, callCheck_expr h base, callCheck_expr h key]
  | .call callee args keywords => by
      have hcallee := callCheck_expr h callee
      have hargs := callCheck_exprs h args
      have hnamed := callCheck_named h keywords
      cases callee with
      | var name =>
          simp only [Check.expr, Bool.and_eq_true]
          exact ⟨⟨h name args keywords, hargs⟩, hnamed⟩
      | _ =>
          simp only [Check.expr, Bool.and_eq_true] at hcallee ⊢
          exact ⟨⟨hcallee, hargs⟩, hnamed⟩
  | .filter operand _ args => by simp [Check.expr, callCheck_expr h operand, callCheck_exprs h args]
  | .test operand _ _ => callCheck_expr h operand
  | .not operand => callCheck_expr h operand
  | .neg operand => callCheck_expr h operand
  | .binary _ left right => by simp [Check.expr, callCheck_expr h left, callCheck_expr h right]
  | .cond condition yes none => by
      simp [Check.expr, callCheck_expr h condition, callCheck_expr h yes]
  | .cond condition yes (some no) => by
      simp [Check.expr, callCheck_expr h condition, callCheck_expr h yes, callCheck_expr h no]

theorem callCheck_exprs (h : AllPass calls) : ∀ es : List Expr, (callCheck calls).exprs es = true
  | [] => rfl
  | e :: rest => by simp [Check.exprs, callCheck_expr h e, callCheck_exprs h rest]

theorem callCheck_entries (h : AllPass calls) :
    ∀ es : List (Expr × Expr), (callCheck calls).entries es = true
  | [] => rfl
  | (key, e) :: rest => by
      simp [Check.entries, callCheck_expr h key, callCheck_expr h e, callCheck_entries h rest]

theorem callCheck_named (h : AllPass calls) :
    ∀ es : List (String × Expr), (callCheck calls).named es = true
  | [] => rfl
  | (_, e) :: rest => by simp [Check.named, callCheck_expr h e, callCheck_named h rest]

end

mutual

theorem callCheck_node (h : AllPass calls) : ∀ n : Node, (callCheck calls).node n = true
  | .text _ => rfl
  | .output e => by simp [NodeCheck.node, callCheck_expr h e]
  | .branch branches otherwise => by
      simp [NodeCheck.node, callCheck_branches h branches, callCheck_nodes h otherwise]
  | .loop target iterable body empty => by
      have hsets : target.names.all (callCheck calls).sets = true :=
        List.all_eq_true.mpr fun _ _ => rfl
      simp [NodeCheck.node, hsets, callCheck_expr h iterable, callCheck_nodes h body,
        callCheck_nodes h empty]
  | .assign _ e => by
      simp only [NodeCheck.node, callCheck_expr h e, Bool.and_true]
      rfl
  | .run e => callCheck_expr h e

theorem callCheck_nodes (h : AllPass calls) : ∀ ns : List Node, (callCheck calls).nodes ns = true
  | [] => rfl
  | n :: rest => by simp [NodeCheck.nodes, callCheck_node h n, callCheck_nodes h rest]

theorem callCheck_branches (h : AllPass calls) : ∀ branches : List (Expr × List Node),
    (callCheck calls).branches branches = true
  | [] => rfl
  | (condition, body) :: rest => by
      simp [NodeCheck.branches, callCheck_expr h condition, callCheck_nodes h body,
        callCheck_branches h rest]

end

end Passing

end Template
end TransformChain
