import TransformChain.Proofs.Template.Lexemes

/-!
# Printed expressions

The lexemes that write an expression, with parentheses only where an operand binds more loosely
than its place allows, and the expressions that can be written.
-/

namespace TransformChain
namespace Template

open Text Grammar

/-!
## Levels

The levels of the grammar from the loosest to the tightest: 0 conditional, 1 `or`, 2 `and`, 3 `not`,
4 comparisons and tests, 5 `~`, 6 `+` and `-`, 7 `*`, `/` and `%`, 8 unary minus, 9 filters,
10 attributes, indices, calls and what stands alone.
-/

namespace BinaryOp

def level : BinaryOp → Nat
  | or => 1
  | and => 2
  | eq | ne | lt | le | gt | ge | mem | notMem => 4
  | concat => 5
  | add | sub => 6
  | mul | div | mod => 7

/-- Comparisons are not associative; the other operators group to the left. -/
def leftLevel (op : BinaryOp) : Nat :=
  if op.level = 4 then 5 else op.level

def lexemes : BinaryOp → List Lexeme
  | and => [.word "and"]
  | or => [.word "or"]
  | mem => [.word "in"]
  | notMem => [.word "not", .word "in"]
  | op => [.symbol op.symbol]

end BinaryOp

def Expr.level : Expr → Nat
  | .cond _ _ _ => 0
  | .binary op _ _ => op.level
  | .not _ => 3
  | .test _ _ _ => 4
  | .neg _ => 8
  | .filter _ _ _ => 9
  | _ => 10

theorem BinaryOp.level_le (op : BinaryOp) : op.level ≤ 7 := by
  cases op <;> decide

theorem Expr.level_le (e : Expr) : e.level ≤ 10 := by
  cases e with
  | binary op left right => exact Nat.le_trans op.level_le (by decide)
  | _ => exact of_decide_eq_true rfl

/-!
## Lexemes of an expression
-/

def literalLexemes : Value → List Lexeme
  | .null => [.word "none"]
  | .bool true => [.word "true"]
  | .bool false => [.word "false"]
  | .int i => [.number i.toInt.toNat]
  | .str s => [.text s]
  | _ => []

/-- The expression where one of the given level is needed, in parentheses if its own is looser. -/
def enclosed (need level : Nat) (ls : List Lexeme) : List Lexeme :=
  if level < need then .symbol "(" :: (ls ++ [.symbol ")"]) else ls

def commaJoined (items : List (List Lexeme)) : List Lexeme :=
  [Lexeme.symbol ","].intercalate items

mutual

def Expr.bare : Expr → List Lexeme
  | .lit value => literalLexemes value
  | .var name => [.word name]
  | .list items => .symbol "[" :: (commaJoined (itemsLexemes items) ++ [.symbol "]"])
  | .dict entries => .symbol "\x7b" :: (commaJoined (entriesLexemes entries) ++ [.symbol "\x7d"])
  | .attr base name => enclosed 10 base.level base.bare ++ [.dotted name]
  | .index base key =>
      enclosed 10 base.level base.bare ++ .symbol "[" :: (key.bare ++ [.symbol "]"])
  | .call callee args keywords =>
      enclosed 10 callee.level callee.bare ++
        .symbol "(" :: (commaJoined (itemsLexemes args ++ namedLexemes keywords) ++ [.symbol ")"])
  | .filter value name [] =>
      enclosed 9 value.level value.bare ++ [.symbol "|", .word name]
  | .filter value name args =>
      enclosed 9 value.level value.bare ++
        .symbol "|" :: .opening name :: (commaJoined (itemsLexemes args) ++ [.symbol ")"])
  | .test value name negated =>
      enclosed 5 value.level value.bare ++
        .word "is" :: ((if negated then [.word "not"] else []) ++ [.word name])
  | .not operand => .word "not" :: enclosed 3 operand.level operand.bare
  | .neg operand => .symbol "-" :: enclosed 8 operand.level operand.bare
  | .binary op left right =>
      enclosed op.leftLevel left.level left.bare ++
        (op.lexemes ++ enclosed (op.level + 1) right.level right.bare)
  | .cond condition yes none =>
      enclosed 1 yes.level yes.bare ++ .word "if" :: enclosed 1 condition.level condition.bare
  | .cond condition yes (some no) =>
      enclosed 1 yes.level yes.bare ++
        .word "if" :: (enclosed 1 condition.level condition.bare ++ .word "else" :: no.bare)

def itemsLexemes : List Expr → List (List Lexeme)
  | [] => []
  | item :: rest => item.bare :: itemsLexemes rest

def entriesLexemes : List (Expr × Expr) → List (List Lexeme)
  | [] => []
  | (key, value) :: rest => (key.bare ++ .symbol ":" :: value.bare) :: entriesLexemes rest

def namedLexemes : List (String × Expr) → List (List Lexeme)
  | [] => []
  | (name, value) :: rest => (.word name :: .symbol "=" :: value.bare) :: namedLexemes rest

end

/-!
## What can be written
-/

def isVariableName (name : String) : Bool :=
  isIdentifier name && !reserved.contains name

/-- The values that have a literal: none, booleans, integers that are not negative, strings. -/
def isLiteral : Value → Bool
  | .null | .bool _ | .str _ => true
  | .int i => 0 ≤ i.toInt
  | _ => false

mutual

/-- Literals have a literal form, variables and arguments are no reserved words, and attributes,
filters and tests have names, the latter not `not`. -/
def Expr.isWritable : Expr → Bool
  | .lit value => isLiteral value
  | .var name => isVariableName name
  | .list items => areWritable items
  | .dict entries => entriesAreWritable entries
  | .attr base name => base.isWritable && isIdentifier name
  | .index base key => base.isWritable && key.isWritable
  | .call callee args keywords =>
      callee.isWritable && areWritable args && namedAreWritable keywords
  | .filter value name args => value.isWritable && isIdentifier name && areWritable args
  | .test value name _ => value.isWritable && isIdentifier name && name != "not"
  | .not operand => operand.isWritable
  | .neg operand => operand.isWritable
  | .binary _ left right => left.isWritable && right.isWritable
  | .cond condition yes none => condition.isWritable && yes.isWritable
  | .cond condition yes (some no) =>
      condition.isWritable && yes.isWritable && no.isWritable

def areWritable : List Expr → Bool
  | [] => true
  | item :: rest => item.isWritable && areWritable rest

def entriesAreWritable : List (Expr × Expr) → Bool
  | [] => true
  | (key, value) :: rest => key.isWritable && value.isWritable && entriesAreWritable rest

def namedAreWritable : List (String × Expr) → Bool
  | [] => true
  | (name, value) :: rest => isVariableName name && value.isWritable && namedAreWritable rest

end

/-!
## A text for each expression
-/

def spread (ls : List Lexeme) : List Char :=
  ls.flatMap fun l => ' ' :: l.chars

def Expr.print (e : Expr) : String :=
  String.ofList (spread e.bare)

theorem endsBefore_of_head {l : Lexeme} {rest : List Char}
    (h : ∀ c, rest.head? = some c → isGap c = true) : l.endsBefore rest = true := by
  cases rest with
  | nil => cases l <;> rfl
  | cons c rest =>
      have hgap := h c rfl
      simp only [isGap, Bool.or_eq_true, beq_iff_eq] at hgap
      rcases hgap with ((rfl | rfl) | rfl) | rfl <;> cases l <;> rfl

theorem spread_cons (l : Lexeme) (ls : List Lexeme) :
    spread (l :: ls) = [' '] ++ (l.chars ++ spread ls) := rfl

theorem head?_spread {ls : List Lexeme} {rest : List Char}
    (hrest : ∀ c, rest.head? = some c → isGap c = true) :
    ∀ c, (spread ls ++ rest).head? = some c → isGap c = true := by
  cases ls with
  | nil => exact hrest
  | cons l ls =>
      intro c hc
      cases hc
      rfl

theorem spellsApart_spread (ls : List Lexeme) {rest : List Char}
    (hrest : ∀ c, rest.head? = some c → isGap c = true) :
    SpellsApart ls (spread ls ++ rest) rest := by
  induction ls with
  | nil => exact .nil
  | cons l ls ih =>
      rw [spread_cons, List.append_assoc, List.append_assoc]
      exact .cons (List.all_eq_true.mp rfl) (fun _ => List.cons_ne_nil _ _)
        (endsBefore_of_head (head?_spread hrest)) ih

/-!
## What may follow
-/

def wordLevel (name : String) : Option Nat :=
  if name = "in" ∨ name = "not" ∨ name = "is" then some 4
  else if name = "and" then some 2
  else if name = "or" then some 1
  else if name = "if" ∨ name = "else" then some 0
  else none

def symbolLevel (c : Char) (next : Option Char) : Option Nat :=
  if c = '.' ∨ c = '[' ∨ c = '(' then some 10
  else if c = '|' then some 9
  else if c = '*' ∨ c = '/' ∨ c = '%' then some 7
  else if c = '+' ∨ c = '-' then some 6
  else if c = '~' then some 5
  else if c = '<' ∨ c = '>' then some 4
  else if (c = '=' ∨ c = '!') ∧ next = some '=' then some 4
  else none

/-- The level of the operation with which a text goes on, without white space in front. -/
def operationLevel : List Char → Option Nat
  | [] => none
  | c :: rest =>
      if isWordStart c then wordLevel (String.ofList (c :: rest.takeWhile isWordPart))
      else symbolLevel c rest.head?

def Stops (level : Nat) (cs : List Char) : Prop :=
  ∀ l, operationLevel (dropGap cs) = some l → l < level

theorem Stops.mono {level level' : Nat} {cs : List Char} (h : Stops level cs)
    (hle : level ≤ level') : Stops level' cs :=
  fun l hl => Nat.lt_of_lt_of_le (h l hl) hle

end Template
end TransformChain
