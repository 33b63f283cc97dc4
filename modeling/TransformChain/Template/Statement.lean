import TransformChain.Template.Grammar

/-!
# Statements

What block tags say.
-/

namespace TransformChain
namespace Template

inductive Statement where
  | ifStart (condition : Expr)
  | elifStart (condition : Expr)
  | elseStart
  | ifEnd
  | forStart (target : LoopTarget) (iterable : Expr)
  | forEnd
  | assign (name : String) (value : Expr)
  | run (expr : Expr)
  | macroStart (name : String) (params : List MacroParameter)
  | macroEnd

namespace Statement

def word : Statement → String
  | ifStart _ => "if"
  | elifStart _ => "elif"
  | elseStart => "else"
  | ifEnd => "endif"
  | forStart _ _ => "for"
  | forEnd => "endfor"
  | assign _ _ => "set"
  | run _ => "do"
  | macroStart _ _ => "macro"
  | macroEnd => "endmacro"

open TransformChain.Parser Grammar

def withExpression (first : String) (build : Expr → Statement) : Parser Statement := do
  let _ ← keyword first
  let expr ← expression
  return build expr

def bare (first : String) (statement : Statement) : Parser Statement := do
  let _ ← keyword first
  return statement

def secondTarget : Parser String := do
  let _ ← char ','
  spaced identifier

def forStatement : Parser Statement := do
  let _ ← keyword "for"
  let first ← spaced identifier
  let second ← Parser.optional secondTarget
  let _ ← keyword "in"
  let iterable ← expression
  return .forStart (LoopTarget.ofNames first second) iterable

def setStatement : Parser Statement := do
  let _ ← keyword "set"
  let name ← spaced identifier
  let _ ← char '='
  let value ← expression
  return .assign name value

def defaultPart : Parser Expr := do
  let _ ← char '='
  spaced expression

def parameter : Parser MacroParameter := do
  let name ← spaced identifier
  let default ← Parser.optional defaultPart
  return (name, default)

def macroStatement : Parser Statement := do
  let _ ← keyword "macro"
  let name ← spaced identifier
  let _ ← char '('
  let params ← separated (char ',') parameter
  gap
  let _ ← char ')'
  return .macroStart name params

def statement : Parser Statement :=
  oneOf [withExpression "if" ifStart, withExpression "elif" elifStart, bare "else" elseStart,
    bare "endif" ifEnd, forStatement, bare "endfor" forEnd, setStatement,
    withExpression "do" run, macroStatement, bare "endmacro" macroEnd]

def parse (template : String) (source : List Char) : Except Error Statement :=
  readWhole template
    (do
      let result ← statement
      gap
      return result)
    source

end Statement
end Template
end TransformChain
