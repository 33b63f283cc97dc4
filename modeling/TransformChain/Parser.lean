import TransformChain.Text.Blank
import TransformChain.Text.Join

/-!
# Parsers

A parser reads the start of a text.  It accepts with a result and the rest of the text, or
rejects at a place, given as the text from there on.  A rejected alternative gives way to the next
one, and what is reported is where the last of them rejected.  A parser that is given a budget of
repetitions or of nested calls reports separately that the budget was spent.
-/

namespace TransformChain

inductive Parsed (α : Type) where
  | accepted (result : α) (rest : List Char)
  | rejected (place : List Char)
  | spent

def Parser (α : Type) := List Char → Parsed α

namespace Parser

def accept (result : α) : Parser α :=
  fun cs => .accepted result cs

def reject : Parser α :=
  fun cs => .rejected cs

def andThen (p : Parser α) (f : α → Parser β) : Parser β :=
  fun cs =>
    match p cs with
    | .accepted result rest => f result rest
    | .rejected place => .rejected place
    | .spent => .spent

instance : Monad Parser where
  pure := accept
  bind := andThen

/-!
## Choice and repetition
-/

def orElse (p q : Parser α) : Parser α :=
  fun cs =>
    match p cs with
    | .rejected _ => q cs
    | outcome => outcome

def oneOf : List (Parser α) → Parser α
  | [] => reject
  | [p] => p
  | p :: q :: rest => orElse p (oneOf (q :: rest))

def optional (p : Parser α) : Parser (Option α) :=
  fun cs =>
    match p cs with
    | .accepted result rest => .accepted (some result) rest
    | .rejected _ => .accepted none cs
    | .spent => .spent

def manyWithin (p : Parser α) : Nat → Parser (List α)
  | 0 => fun _ => .spent
  | budget + 1 => fun cs =>
      match p cs with
      | .accepted result rest =>
          match manyWithin p budget rest with
          | .accepted results rest => .accepted (result :: results) rest
          | .rejected place => .rejected place
          | .spent => .spent
      | .rejected _ => .accepted [] cs
      | .spent => .spent

/-- Repetition of a parser that accepts no empty text: a text of `n` characters holds at most `n`
repetitions. -/
def many (p : Parser α) : Parser (List α) :=
  fun cs => manyWithin p (cs.length + 1) cs

/-- Items with separators between them, possibly none.  A separator that no item follows is left
unread. -/
def separated (separator : Parser β) (item : Parser α) : Parser (List α) :=
  fun cs =>
    match item cs with
    | .accepted first rest =>
        match many (andThen separator fun _ => item) rest with
        | .accepted others rest => .accepted (first :: others) rest
        | .rejected place => .rejected place
        | .spent => .spent
    | .rejected _ => .accepted [] cs
    | .spent => .spent

/-!
## Single characters and words
-/

def satisfy (p : Char → Bool) : Parser Char
  | [] => .rejected []
  | c :: rest => if p c then .accepted c rest else .rejected (c :: rest)

def char (c : Char) : Parser Char :=
  satisfy (fun d => d == c)

def exactly (symbol : String) : Parser Unit :=
  fun cs =>
    match Text.afterStart? symbol.toList cs with
    | some rest => .accepted () rest
    | none => .rejected cs

def takeWhile (p : Char → Bool) : Parser (List Char) :=
  fun cs => .accepted (cs.takeWhile p) (cs.dropWhile p)

def takeWhile1 (p : Char → Bool) : Parser (List Char) :=
  fun cs =>
    match cs.takeWhile p with
    | [] => .rejected cs
    | taken => .accepted taken (cs.dropWhile p)

def gap : Parser Unit :=
  fun cs => .accepted () (Text.dropGap cs)

def spaced (p : Parser α) : Parser α := do
  gap
  let result ← p
  gap
  return result

/-- Accepts nothing where the parser would accept, and rejects there. -/
def notAhead (p : Parser α) : Parser Unit :=
  fun cs =>
    match p cs with
    | .accepted _ _ => .rejected cs
    | .rejected _ => .accepted () cs
    | .spent => .spent

/-- Rejects, where the parser started, what does not pass the test. -/
def verify (p : Parser α) (test : α → Bool) : Parser α :=
  fun cs =>
    match p cs with
    | .accepted result rest => if test result then .accepted result rest else .rejected cs
    | outcome => outcome

def mapSome (p : Parser α) (f : α → Option β) : Parser β :=
  fun cs =>
    match p cs with
    | .accepted result rest =>
        match f result with
        | some image => .accepted image rest
        | none => .rejected cs
    | .rejected place => .rejected place
    | .spent => .spent

def whole (p : Parser α) : Parser α :=
  fun cs =>
    match p cs with
    | .accepted result [] => .accepted result []
    | .accepted _ rest => .rejected rest
    | outcome => outcome

end Parser
end TransformChain
