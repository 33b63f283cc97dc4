import TransformChain.Decimal.Reading
import TransformChain.Error
import TransformChain.Parser
import TransformChain.Template.Expr

/-!
# The grammar of expressions

From the loosest to the tightest: conditional, `or`, `and`, `not`, one comparison or test, `~`,
`+` and `-`, `*` and `/` and `%`, unary minus, filters, then attributes, indices and calls.
Each level is a parser over a parser `inner` for the expressions nested inside brackets and after
`else`; `Grammar.expression` ties the knot with a budget for the nesting.
-/

namespace TransformChain
namespace Template
namespace Grammar

open TransformChain.Parser

/-!
## Words
-/

def isWordStart (c : Char) : Bool :=
  c.isAlpha || c == '_'

def isWordPart (c : Char) : Bool :=
  c.isAlphanum || c == '_'

def word : Parser String :=
  fun cs =>
    match cs with
    | [] => .rejected []
    | c :: rest =>
        if isWordStart c then
          .accepted (String.ofList (c :: rest.takeWhile isWordPart)) (rest.dropWhile isWordPart)
        else
          .rejected (c :: rest)

def reserved : List String :=
  ["and", "or", "not", "in", "is", "if", "else", "true", "false", "none", "null", "True",
    "False", "None"]

def keyword (text : String) : Parser String :=
  spaced (verify word (fun w => w == text))

def identifier : Parser String :=
  verify word (fun w => !reserved.contains w)

/-!
## Literals
-/

def unescape (c : Char) : Char :=
  if c == 'n' then '\n' else if c == 't' then '\t' else c

/-- The content of a string up to the closing quote, and what follows the quote. -/
def stringBody (quote : Char) : List Char → Option (List Char × List Char)
  | [] => none
  | [c] => if c = quote then some ([], []) else none
  | c :: d :: rest =>
      if c = '\\' then
        match stringBody quote rest with
        | some (content, after) => some (unescape d :: content, after)
        | none => none
      else if c = quote then
        some ([], d :: rest)
      else
        match stringBody quote (d :: rest) with
        | some (content, after) => some (c :: content, after)
        | none => none

def stringText : Parser String
  | [] => .rejected []
  | c :: rest =>
      if c = '\'' || c = '"' then
        match stringBody c rest with
        | some (content, after) => .accepted (String.ofList content) after
        | none => .rejected (c :: rest)
      else
        .rejected (c :: rest)

def stringLiteral : Parser Expr := do
  let s ← stringText
  return .lit (.str s)

def fractionDigits : Parser (List Char) := do
  let _ ← char '.'
  takeWhile1 Char.isDigit

/-- The value of a number: a float if it has a fraction, an integer if it fits. -/
def numberValue? (whole : List Char) (fraction : Option (List Char)) : Option Value :=
  match fraction with
  | some places =>
      some (.float (Decimal.toFloat (Decimal.natOfDigits (whole ++ places)) (-places.length)))
  | none => (Decimal.toInt64? (Decimal.natOfDigits whole)).map Value.int

/-- Digits, possibly with a fraction.  An integer that does not fit 64 bits is rejected. -/
def number : Parser Expr :=
  mapSome
    (do
      let whole ← takeWhile1 Char.isDigit
      let fraction ← Parser.optional fractionDigits
      return (whole, fraction))
    (fun parts => (numberValue? parts.1 parts.2).map Expr.lit)

def constantValue? (w : String) : Option Value :=
  if w = "true" || w = "True" then some (.bool true)
  else if w = "false" || w = "False" then some (.bool false)
  else if w = "none" || w = "None" || w = "null" then some .null
  else none

def constant : Parser Expr :=
  mapSome word (fun w => (constantValue? w).map Expr.lit)

def reference : Parser Expr := do
  let name ← identifier
  return .var name

/-!
## Brackets
-/

/-- Items between brackets, separated by commas; one comma may follow the last. -/
def bracketed (opening closing : Char) (item : Parser α) : Parser (List α) := do
  let _ ← char opening
  let items ← separated (char ',') item
  let _ ← Parser.optional (spaced (char ','))
  gap
  let _ ← char closing
  return items

def listLiteral (inner : Parser Expr) : Parser Expr := do
  let items ← bracketed '[' ']' (spaced inner)
  return .list items

def entry (inner : Parser Expr) : Parser (Expr × Expr) := do
  let key ← spaced inner
  let _ ← char ':'
  let value ← spaced inner
  return (key, value)

def dictLiteral (inner : Parser Expr) : Parser Expr := do
  let entries ← bracketed '\x7b' '\x7d' (entry inner)
  return .dict entries

def parenthesized (inner : Parser Expr) : Parser Expr := do
  let _ ← char '('
  let expr ← spaced inner
  let _ ← char ')'
  return expr

def primary (inner : Parser Expr) : Parser Expr :=
  oneOf [parenthesized inner, listLiteral inner, dictLiteral inner, stringLiteral, number,
    constant, reference]

/-!
## Attributes, indices, calls and filters
-/

abbrev CallArgument := Option String × Expr

def namedArgument (inner : Parser Expr) : Parser CallArgument := do
  let name ← spaced identifier
  let _ ← char '='
  notAhead (char '=')
  let value ← spaced inner
  return (some name, value)

def plainArgument (inner : Parser Expr) : Parser CallArgument := do
  let value ← spaced inner
  return (none, value)

def arguments (inner : Parser Expr) : Parser (List CallArgument) :=
  bracketed '(' ')' (orElse (namedArgument inner) (plainArgument inner))

def positional (args : List CallArgument) : List Expr :=
  args.filterMap fun arg =>
    match arg with
    | (none, value) => some value
    | (some _, _) => none

def named (args : List CallArgument) : List (String × Expr) :=
  args.filterMap fun arg =>
    match arg with
    | (none, _) => none
    | (some name, value) => some (name, value)

inductive Suffix where
  | attr (name : String)
  | index (key : Expr)
  | call (args : List CallArgument)

def Suffix.apply (base : Expr) : Suffix → Expr
  | attr name => .attr base name
  | index key => .index base key
  | call args => .call base (positional args) (named args)

def attrSuffix : Parser Suffix := do
  gap
  let _ ← char '.'
  let name ← word
  return .attr name

def indexSuffix (inner : Parser Expr) : Parser Suffix := do
  gap
  let _ ← char '['
  let key ← spaced inner
  let _ ← char ']'
  return .index key

def callSuffix (inner : Parser Expr) : Parser Suffix := do
  gap
  let args ← arguments inner
  return .call args

def suffix (inner : Parser Expr) : Parser Suffix :=
  oneOf [attrSuffix, indexSuffix inner, callSuffix inner]

def postfixed (inner : Parser Expr) : Parser Expr := do
  let base ← primary inner
  let suffixes ← many (suffix inner)
  return suffixes.foldl Suffix.apply base

/-- The name of a filter and its arguments; arguments given by name are not used. -/
def filterCall (inner : Parser Expr) : Parser (String × List Expr) := do
  let _ ← spaced (char '|')
  let name ← word
  let args ← Parser.optional (arguments inner)
  return (name, positional (args.getD []))

def filtered (inner : Parser Expr) : Parser Expr := do
  let base ← postfixed inner
  let filters ← many (filterCall inner)
  return filters.foldl (fun value call => .filter value call.1 call.2) base

/-!
## Operators
-/

def unaryWithin (inner : Parser Expr) : Nat → Parser Expr
  | 0 => fun _ => .spent
  | budget + 1 =>
      orElse
        (do
          gap
          let _ ← char '-'
          let operand ← unaryWithin inner budget
          return .neg operand)
        (do
          gap
          filtered inner)

def unary (inner : Parser Expr) : Parser Expr :=
  fun cs => unaryWithin inner (cs.length + 1) cs

def leftGrouped (operator : Parser BinaryOp) (operand : Parser Expr) : Parser Expr := do
  let first ← operand
  let others ← many (do
    let op ← operator
    let right ← operand
    return (op, right))
  return others.foldl (fun left part => .binary part.1 left part.2) first

def symbolOp (op : BinaryOp) : Parser BinaryOp := do
  exactly op.symbol
  return op

def wordOp (op : BinaryOp) : Parser BinaryOp := do
  let _ ← keyword op.symbol
  return op

def product (inner : Parser Expr) : Parser Expr :=
  leftGrouped (spaced (oneOf [symbolOp .mul, symbolOp .div, symbolOp .mod])) (unary inner)

def sum (inner : Parser Expr) : Parser Expr :=
  leftGrouped (spaced (oneOf [symbolOp .add, symbolOp .sub])) (product inner)

def concatenation (inner : Parser Expr) : Parser Expr :=
  leftGrouped (spaced (symbolOp .concat)) (sum inner)

def comparisonOp : Parser BinaryOp :=
  spaced (oneOf [symbolOp .eq, symbolOp .ne, symbolOp .le, symbolOp .ge, symbolOp .lt,
    symbolOp .gt])

inductive Comparand where
  | binary (op : BinaryOp) (right : Expr)
  | test (negated : Bool) (name : String)

def Comparand.apply (left : Expr) : Option Comparand → Expr
  | none => left
  | some (binary op right) => .binary op left right
  | some (test negated name) => .test left name negated

def comparand (inner : Parser Expr) : Parser Comparand :=
  oneOf [
    do
      let op ← comparisonOp
      let right ← concatenation inner
      return .binary op right,
    do
      let _ ← keyword "not"
      let _ ← keyword "in"
      let right ← concatenation inner
      return .binary .notMem right,
    do
      let _ ← keyword "in"
      let right ← concatenation inner
      return .binary .mem right,
    do
      let _ ← keyword "is"
      let negation ← Parser.optional (keyword "not")
      let name ← spaced word
      return .test negation.isSome name]

def comparison (inner : Parser Expr) : Parser Expr := do
  let left ← concatenation inner
  let tail ← Parser.optional (comparand inner)
  return Comparand.apply left tail

def negationWithin (inner : Parser Expr) : Nat → Parser Expr
  | 0 => fun _ => .spent
  | budget + 1 =>
      orElse
        (do
          let _ ← keyword "not"
          let operand ← negationWithin inner budget
          return .not operand)
        (comparison inner)

def negation (inner : Parser Expr) : Parser Expr :=
  fun cs => negationWithin inner (cs.length + 1) cs

def conjunction (inner : Parser Expr) : Parser Expr :=
  leftGrouped (wordOp .and) (negation inner)

def disjunction (inner : Parser Expr) : Parser Expr :=
  leftGrouped (wordOp .or) (conjunction inner)

def elsePart (inner : Parser Expr) : Parser Expr := do
  let _ ← keyword "else"
  inner

def conditionPart (inner : Parser Expr) : Parser (Expr × Option Expr) := do
  let _ ← keyword "if"
  let condition ← disjunction inner
  let no ← Parser.optional (elsePart inner)
  return (condition, no)

def conditional (inner : Parser Expr) : Parser Expr := do
  let yes ← disjunction inner
  let tail ← Parser.optional (conditionPart inner)
  match tail with
  | none => return yes
  | some (condition, no) => return .cond condition yes no

def expressionWithin : Nat → Parser Expr
  | 0 => fun _ => .spent
  | budget + 1 => conditional (expressionWithin budget)

/-- An expression.  Each nesting takes a character, so the text's length bounds their number. -/
def expression : Parser Expr :=
  fun cs => expressionWithin (cs.length + 1) cs

/-!
## Whole texts
-/

/-- What is wrong with a source text whose reading ended at `place`. -/
def faultAt (source place : List Char) : SyntaxFault :=
  let shown := String.ofList (Text.trimChars source)
  match Text.trimStart place with
  | [] => .incomplete shown
  | near => .cannotParse shown (Text.snippet near)

def readWhole (template : String) (p : Parser α) (source : List Char) : Except Error α :=
  match whole p source with
  | .accepted result _ => .ok result
  | .rejected place => .error (.templateSyntax template (faultAt source place))
  | .spent => .error (.templateSyntax template (faultAt source source))

end Grammar

def Expr.parse (template : String) (source : List Char) : Except Error Expr :=
  Grammar.readWhole template (Parser.spaced Grammar.expression) source

end Template
end TransformChain
