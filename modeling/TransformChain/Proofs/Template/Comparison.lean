import TransformChain.Template.Tree

/-!
# Comparing trees

Trees hold values and values hold floats, on which equality cannot be decided.  The literals that
a grammar gives are mostly texts, though; what is compared here are trees whose literals are
neither floats nor collections.  Trees found alike are equal, so that the tree of a given text can
be checked by running the parser.
-/

namespace TransformChain

def Value.alike : Value → Value → Bool
  | .null, .null => true
  | .bool a, .bool b => a == b
  | .int a, .int b => a == b
  | .str a, .str b => a == b
  | _, _ => false

theorem Value.eq_of_alike {a b : Value} (h : a.alike b = true) : a = b := by
  unfold alike at h
  split at h
  · rfl
  · exact congrArg Value.bool (eq_of_beq h)
  · exact congrArg Value.int (eq_of_beq h)
  · exact congrArg Value.str (eq_of_beq h)
  · cases h

namespace Template

/-!
## Expressions
-/

mutual

def Expr.alike : Expr → Expr → Bool
  | .lit a, .lit b => a.alike b
  | .var m, .var n => m == n
  | .list as, .list bs => alikeAll as bs
  | .dict as, .dict bs => alikeEntries as bs
  | .attr a m, .attr b n => a.alike b && m == n
  | .index a c, .index b d => a.alike b && c.alike d
  | .call a as ms, .call b bs ns => a.alike b && alikeAll as bs && alikeNamed ms ns
  | .filter a m as, .filter b n bs => a.alike b && m == n && alikeAll as bs
  | .test a m x, .test b n y => a.alike b && m == n && x == y
  | .not a, .not b => a.alike b
  | .neg a, .neg b => a.alike b
  | .binary o a c, .binary p b d => o == p && a.alike b && c.alike d
  | .cond a c none, .cond b d none => a.alike b && c.alike d
  | .cond a c (some e), .cond b d (some f) => a.alike b && c.alike d && e.alike f
  | _, _ => false

def alikeAll : List Expr → List Expr → Bool
  | [], [] => true
  | a :: as, b :: bs => a.alike b && alikeAll as bs
  | _, _ => false

def alikeEntries : List (Expr × Expr) → List (Expr × Expr) → Bool
  | [], [] => true
  | (a, c) :: as, (b, d) :: bs => a.alike b && c.alike d && alikeEntries as bs
  | _, _ => false

def alikeNamed : List (String × Expr) → List (String × Expr) → Bool
  | [], [] => true
  | (m, a) :: as, (n, b) :: bs => m == n && a.alike b && alikeNamed as bs
  | _, _ => false

end

mutual

theorem Expr.eq_of_alike : ∀ {a b : Expr}, a.alike b = true → a = b := by
  intro a b h
  unfold Expr.alike at h
  split at h
  all_goals try simp only [Bool.and_eq_true, beq_iff_eq, Bool.false_eq_true] at h
  · rw [Value.eq_of_alike h]
  · rw [h]
  · rw [eq_of_alikeAll h]
  · rw [eq_of_alikeEntries h]
  · rw [Expr.eq_of_alike h.left, h.right]
  · rw [Expr.eq_of_alike h.left, Expr.eq_of_alike h.right]
  · rw [Expr.eq_of_alike h.left.left, eq_of_alikeAll h.left.right, eq_of_alikeNamed h.right]
  · rw [Expr.eq_of_alike h.left.left, h.left.right, eq_of_alikeAll h.right]
  · rw [Expr.eq_of_alike h.left.left, h.left.right, h.right]
  · rw [Expr.eq_of_alike h]
  · rw [Expr.eq_of_alike h]
  · rw [h.left.left, Expr.eq_of_alike h.left.right, Expr.eq_of_alike h.right]
  · rw [Expr.eq_of_alike h.left, Expr.eq_of_alike h.right]
  · rw [Expr.eq_of_alike h.left.left, Expr.eq_of_alike h.left.right, Expr.eq_of_alike h.right]

theorem eq_of_alikeAll : ∀ {as bs : List Expr}, alikeAll as bs = true → as = bs := by
  intro as bs h
  unfold alikeAll at h
  split at h
  · rfl
  · rw [Bool.and_eq_true] at h
    rw [Expr.eq_of_alike h.left, eq_of_alikeAll h.right]
  · cases h

theorem eq_of_alikeEntries :
    ∀ {as bs : List (Expr × Expr)}, alikeEntries as bs = true → as = bs := by
  intro as bs h
  unfold alikeEntries at h
  split at h
  · rfl
  · simp only [Bool.and_eq_true] at h
    rw [Expr.eq_of_alike h.left.left, Expr.eq_of_alike h.left.right, eq_of_alikeEntries h.right]
  · cases h

theorem eq_of_alikeNamed :
    ∀ {as bs : List (String × Expr)}, alikeNamed as bs = true → as = bs := by
  intro as bs h
  unfold alikeNamed at h
  split at h
  · rfl
  · simp only [Bool.and_eq_true, beq_iff_eq] at h
    rw [h.left.left, Expr.eq_of_alike h.left.right, eq_of_alikeNamed h.right]
  · cases h

end

/-!
## Nodes
-/

mutual

def Node.alike : Node → Node → Bool
  | .text s, .text t => s == t
  | .output a, .output b => a.alike b
  | .branch as os, .branch bs ps => alikeBranches as bs && alikeNodes os ps
  | .loop s a ms os, .loop t b ns ps =>
      s == t && a.alike b && alikeNodes ms ns && alikeNodes os ps
  | .assign m a, .assign n b => m == n && a.alike b
  | .run a, .run b => a.alike b
  | _, _ => false

def alikeNodes : List Node → List Node → Bool
  | [], [] => true
  | m :: ms, n :: ns => m.alike n && alikeNodes ms ns
  | _, _ => false

def alikeBranches : List (Expr × List Node) → List (Expr × List Node) → Bool
  | [], [] => true
  | (a, ms) :: as, (b, ns) :: bs => a.alike b && alikeNodes ms ns && alikeBranches as bs
  | _, _ => false

end

mutual

theorem Node.eq_of_alike : ∀ {m n : Node}, m.alike n = true → m = n := by
  intro m n h
  unfold Node.alike at h
  split at h
  all_goals try simp only [Bool.and_eq_true, beq_iff_eq, Bool.false_eq_true] at h
  · rw [h]
  · rw [Expr.eq_of_alike h]
  · rw [eq_of_alikeBranches h.left, eq_of_alikeNodes h.right]
  · rw [h.left.left.left, Expr.eq_of_alike h.left.left.right, eq_of_alikeNodes h.left.right,
      eq_of_alikeNodes h.right]
  · rw [h.left, Expr.eq_of_alike h.right]
  · rw [Expr.eq_of_alike h]

theorem eq_of_alikeNodes : ∀ {ms ns : List Node}, alikeNodes ms ns = true → ms = ns := by
  intro ms ns h
  unfold alikeNodes at h
  split at h
  · rfl
  · rw [Bool.and_eq_true] at h
    rw [Node.eq_of_alike h.left, eq_of_alikeNodes h.right]
  · cases h

theorem eq_of_alikeBranches :
    ∀ {as bs : List (Expr × List Node)}, alikeBranches as bs = true → as = bs := by
  intro as bs h
  unfold alikeBranches at h
  split at h
  · rfl
  · simp only [Bool.and_eq_true] at h
    rw [Expr.eq_of_alike h.left.left, eq_of_alikeNodes h.left.right, eq_of_alikeBranches h.right]
  · cases h

end

/-!
## The tree of a text
-/

def Body.readsAs (template : String) (source : List Char) (nodes : List Node) : Bool :=
  match tokenize source with
  | .error _ => false
  | .ok tokens =>
      match Body.ofTokens template tokens with
      | .error _ => false
      | .ok body => alikeNodes body.nodes nodes && body.macros.isEmpty

theorem Body.parse_of_readsAs {template source : String} {chars : List Char} {nodes : List Node}
    (hchars : source.toList = chars) (h : Body.readsAs template chars nodes = true) :
    Body.parse template source = .ok ⟨nodes, []⟩ := by
  unfold Body.readsAs at h
  unfold Body.parse
  rw [hchars]
  cases htokens : tokenize chars with
  | error fault =>
      rw [htokens] at h
      cases h
  | ok tokens =>
      rw [htokens] at h
      cases hbody : Body.ofTokens template tokens with
      | error e =>
          simp only [hbody] at h
          cases h
      | ok body =>
          simp only [hbody, Bool.and_eq_true, List.isEmpty_iff] at h
          cases body with
          | mk found macros =>
              rw [← eq_of_alikeNodes h.left, ← h.right]
              exact hbody

end Template
end TransformChain
