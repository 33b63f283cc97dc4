import TransformChain.Value

/-!
# Template trees

Expressions of the template language, and the nodes of a template body.
-/

namespace TransformChain
namespace Template

inductive BinaryOp where
  | and
  | or
  | eq
  | ne
  | lt
  | le
  | gt
  | ge
  | mem
  | notMem
  | add
  | sub
  | mul
  | div
  | mod
  | concat
deriving Repr, DecidableEq

def BinaryOp.symbol : BinaryOp → String
  | and => "and"
  | or => "or"
  | eq => "=="
  | ne => "!="
  | lt => "<"
  | le => "<="
  | gt => ">"
  | ge => ">="
  | mem => "in"
  | notMem => "not in"
  | add => "+"
  | sub => "-"
  | mul => "*"
  | div => "/"
  | mod => "%"
  | concat => "~"

inductive Expr where
  | lit (value : Value)
  | var (name : String)
  | list (items : List Expr)
  | dict (entries : List (Expr × Expr))
  | attr (base : Expr) (name : String)
  | index (base key : Expr)
  | call (callee : Expr) (args : List Expr) (keywords : List (String × Expr))
  | filter (value : Expr) (name : String) (args : List Expr)
  | test (value : Expr) (name : String) (negated : Bool)
  | not (operand : Expr)
  | neg (operand : Expr)
  | binary (op : BinaryOp) (left right : Expr)
  | cond (condition yes : Expr) (no : Option Expr)
deriving Inhabited

inductive LoopTarget where
  | single (name : String)
  | pair (first second : String)
deriving Repr, DecidableEq

def LoopTarget.ofNames (first : String) : Option String → LoopTarget
  | none => single first
  | some second => pair first second

inductive Node where
  | text (content : String)
  | output (expr : Expr)
  | branch (branches : List (Expr × List Node)) (otherwise : List Node)
  | loop (target : LoopTarget) (iterable : Expr) (body empty : List Node)
  | assign (name : String) (value : Expr)
  | run (expr : Expr)
deriving Inhabited

abbrev MacroParameter := String × Option Expr

structure MacroDef where
  name : String
  params : List MacroParameter
  body : List Node
deriving Inhabited

end Template
end TransformChain
