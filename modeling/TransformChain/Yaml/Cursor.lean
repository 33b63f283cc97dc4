/-!
# Places in a document

A cursor is the part of a YAML document that has not been read, with its line and column.
-/

namespace TransformChain
namespace Yaml

structure Cursor where
  rest : List Char
  index : Nat
  line : Nat
  column : Nat

def isAllowed (c : Char) : Bool :=
  let code := c.toNat
  code == 0x9 || code == 0xA || code == 0xD || (0x20 ≤ code && code ≤ 0x7E) || code == 0x85 ||
    (0xA0 ≤ code && code ≤ 0xD7FF) || (0xE000 ≤ code && code ≤ 0xFFFD && code != 0xFEFF) ||
    0x10000 ≤ code

def isBreak (c : Char) : Bool :=
  c == '\n' || c == '\r' || c.toNat == 0x85 || c.toNat == 0x2028 || c.toNat == 0x2029

def isSpace (c : Char) : Bool :=
  c == ' ' || c == '\t'

def atBlank : List Char → Bool
  | [] => true
  | c :: _ => isSpace c || isBreak c

def atBreak : List Char → Bool
  | [] => true
  | c :: _ => isBreak c

namespace Cursor

def ofChars (cs : List Char) : Cursor :=
  ⟨cs, 0, 0, 0⟩

/-- Passes characters of the current line. -/
def skip (cursor : Cursor) (count : Nat) : Cursor :=
  { cursor with
    rest := cursor.rest.drop count
    index := cursor.index + count
    column := cursor.column + count }

def peek? (cursor : Cursor) : Option Char :=
  cursor.rest.head?

/-- The characters that a line break stands for: itself only for the separators of lines and
paragraphs, a line feed for every other. -/
def breakText : List Char → List Char
  | [] => []
  | c :: _ => if c.toNat == 0x2028 || c.toNat == 0x2029 then [c] else ['\n']

def breakLength : List Char → Nat
  | [] => 0
  | '\r' :: '\n' :: _ => 2
  | _ => 1

def nextLine (cursor : Cursor) : Cursor :=
  let count := breakLength cursor.rest
  if count = 0 then
    cursor
  else
    { rest := cursor.rest.drop count
      index := cursor.index + count
      line := cursor.line + 1
      column := 0 }

def readBreak (cursor : Cursor) : List Char × Cursor :=
  match cursor.rest with
  | [] => ([], cursor)
  | c :: _ => if isBreak c then (breakText cursor.rest, cursor.nextLine) else ([], cursor)

/-- Reads the longest run of characters that pass the test, none of which is a line break. -/
def readWhile (cursor : Cursor) (test : Char → Bool) : List Char × Cursor :=
  let run := cursor.rest.takeWhile test
  (run, cursor.skip run.length)

def atMarker (cursor : Cursor) : Bool :=
  cursor.column == 0 &&
    match cursor.rest with
    | '-' :: '-' :: '-' :: rest => atBlank rest
    | '.' :: '.' :: '.' :: rest => atBlank rest
    | _ => false

end Cursor
end Yaml
end TransformChain
