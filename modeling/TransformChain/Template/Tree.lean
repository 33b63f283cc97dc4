import TransformChain.Template.Statement
import TransformChain.Template.Tag

/-!
# Template bodies

Folds the tokens of a template into its nodes.  The blocks that are open at a token form a stack;
a statement either belongs into the innermost block, continues it, closes it, or is out of place.
Macros are taken out of the body wherever they stand.
-/

namespace TransformChain
namespace Template

/-- A template body and the macros it defines, in the order in which their definitions end. -/
structure Body where
  nodes : List Node
  macros : List MacroDef
deriving Inhabited

/-- A block whose end has not been met: the part of it that is being filled, and the parts that
are complete. -/
inductive OpenBlock where
  | branch (done : List (Expr × List Node)) (condition : Expr)
  | otherwise (done : List (Expr × List Node))
  | loop (target : LoopTarget) (iterable : Expr)
  | loopElse (target : LoopTarget) (iterable : Expr) (body : List Node)
  | macroBody (name : String) (params : List MacroParameter)

namespace OpenBlock

def expectedEnd : OpenBlock → String
  | branch _ _ => "elif"
  | otherwise _ => "endif"
  | loop _ _ => "else"
  | loopElse _ _ _ => "endfor"
  | macroBody _ _ => "endmacro"

end OpenBlock

/-- The nodes read so far in the innermost open block, the open blocks from the innermost out,
each with the nodes before it, and the macros. -/
structure Assembly where
  nodes : List Node
  enclosing : List (OpenBlock × List Node)
  macros : List MacroDef

namespace Assembly

def empty : Assembly :=
  ⟨[], [], []⟩

def add (assembly : Assembly) (node : Node) : Assembly :=
  { assembly with nodes := assembly.nodes ++ [node] }

def opening (assembly : Assembly) (block : OpenBlock) : Assembly :=
  { assembly with nodes := [], enclosing := (block, assembly.nodes) :: assembly.enclosing }

def hasMacro (assembly : Assembly) (name : String) : Bool :=
  assembly.macros.any (fun m => m.name == name)

def ending (assembly : Assembly) (statement : Statement) : Except SyntaxFault Assembly :=
  match assembly.enclosing, statement with
  | (.branch done condition, before) :: outer, .elifStart next =>
      .ok { assembly with
        nodes := []
        enclosing := (.branch (done ++ [(condition, assembly.nodes)]) next, before) :: outer }
  | (.branch done condition, before) :: outer, .elseStart =>
      .ok { assembly with
        nodes := []
        enclosing := (.otherwise (done ++ [(condition, assembly.nodes)]), before) :: outer }
  | (.branch done condition, before) :: outer, .ifEnd =>
      .ok { assembly with
        nodes := before ++ [.branch (done ++ [(condition, assembly.nodes)]) []]
        enclosing := outer }
  | (.otherwise done, before) :: outer, .ifEnd =>
      .ok { assembly with
        nodes := before ++ [.branch done assembly.nodes]
        enclosing := outer }
  | (.loop target iterable, before) :: outer, .elseStart =>
      .ok { assembly with
        nodes := []
        enclosing := (.loopElse target iterable assembly.nodes, before) :: outer }
  | (.loop target iterable, before) :: outer, .forEnd =>
      .ok { assembly with
        nodes := before ++ [.loop target iterable assembly.nodes []]
        enclosing := outer }
  | (.loopElse target iterable body, before) :: outer, .forEnd =>
      .ok { assembly with
        nodes := before ++ [.loop target iterable body assembly.nodes]
        enclosing := outer }
  | (.macroBody name params, before) :: outer, .macroEnd =>
      if assembly.hasMacro name then
        .error (.repeatedMacro name)
      else
        .ok {
          nodes := before
          enclosing := outer
          macros := assembly.macros ++ [⟨name, params, assembly.nodes⟩] }
  | _, _ => .error (.unexpectedBlock statement.word)

def statement (assembly : Assembly) (s : Statement) : Except SyntaxFault Assembly :=
  match s with
  | .ifStart condition => .ok (assembly.opening (.branch [] condition))
  | .forStart target iterable => .ok (assembly.opening (.loop target iterable))
  | .macroStart name params => .ok (assembly.opening (.macroBody name params))
  | .assign name value => .ok (assembly.add (.assign name value))
  | .run expr => .ok (assembly.add (.run expr))
  | other => assembly.ending other

def token (template : String) (assembly : Assembly) : Token → Except Error Assembly
  | .text content => .ok (assembly.add (.text (String.ofList content)))
  | .output source =>
      match Expr.parse template source with
      | .ok expr => .ok (assembly.add (.output expr))
      | .error e => .error e
  | .block source =>
      match Statement.parse template source with
      | .ok s =>
          match assembly.statement s with
          | .ok next => .ok next
          | .error fault => .error (.templateSyntax template fault)
      | .error e => .error e

def tokens (template : String) (assembly : Assembly) : List Token → Except Error Assembly
  | [] => .ok assembly
  | t :: rest =>
      match assembly.token template t with
      | .ok next => next.tokens template rest
      | .error e => .error e

def finish (assembly : Assembly) : Except SyntaxFault Body :=
  match assembly.enclosing with
  | [] => .ok ⟨assembly.nodes, assembly.macros⟩
  | (block, _) :: _ => .error (.unexpectedEnd block.expectedEnd)

end Assembly

namespace Body

def ofTokens (template : String) (tokens : List Token) : Except Error Body :=
  match Assembly.empty.tokens template tokens with
  | .error e => .error e
  | .ok assembly =>
      match assembly.finish with
      | .ok body => .ok body
      | .error fault => .error (.templateSyntax template fault)

def parse (template : String) (source : String) : Except Error Body :=
  match tokenize source.toList with
  | .ok tokens => ofTokens template tokens
  | .error fault => .error (.templateSyntax template fault)

end Body
end Template

structure Template where
  name : String
  source : String
  body : Template.Body
deriving Inhabited

namespace Template

def parse (name source : String) : Except Error Template :=
  match Body.parse name source with
  | .ok body => .ok ⟨name, source, body⟩
  | .error e => .error e

def findMacro? (template : Template) (name : String) : Option MacroDef :=
  template.body.macros.find? (fun m => m.name == name)

end Template
end TransformChain
