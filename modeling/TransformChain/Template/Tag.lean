import TransformChain.Error
import TransformChain.Text.Blank

/-!
# Tags

A template is text with tags in it: outputs between double braces, blocks between brace and
percent, comments between brace and hash.  `Scan.ofChars` cuts a template at its tags, and
`Scan.tokens` drops the comments and removes the white space that the tags take with them.
-/

namespace TransformChain
namespace Template

inductive TagKind where
  | output
  | block
  | comment
deriving Repr, DecidableEq

namespace TagKind

def ofOpener? (c : Char) : Option TagKind :=
  if c = '\x7b' then some output
  else if c = '%' then some block
  else if c = '#' then some comment
  else none

def opener : TagKind → Char
  | output => '\x7b'
  | block => '%'
  | comment => '#'

def closer : TagKind → Char
  | output => '\x7d'
  | block => '%'
  | comment => '#'

end TagKind

/-- A tag, with the dashes next to its delimiters taken off the content. -/
structure Tag where
  kind : TagKind
  content : List Char
  trimBefore : Bool
  trimAfter : Bool
deriving Repr, DecidableEq

/-- A template cut at its tags: the text before the first, and each tag with the text after it. -/
structure Scan where
  head : List Char
  tail : List (Tag × List Char)
deriving Repr, DecidableEq

/-!
## Cutting
-/

def breakAtTag : List Char → List Char × List Char
  | [] => ([], [])
  | [c] => ([c], [])
  | c :: d :: rest =>
      if c = '\x7b' ∧ (TagKind.ofOpener? d).isSome then
        ([], c :: d :: rest)
      else
        let (text, after) := breakAtTag (d :: rest)
        (c :: text, after)

/-- The content up to the closing delimiter, and what follows it.  Outside comments a delimiter
inside quotes does not count; a backslash inside quotes hides the next character. -/
def closeTag (kind : TagKind) : Option Char → List Char → Option (List Char × List Char)
  | _, [] => none
  | _, [_] => none
  | some quote, c :: d :: rest =>
      if c = '\\' then
        match closeTag kind (some quote) rest with
        | some (content, after) => some (c :: d :: content, after)
        | none => none
      else
        match closeTag kind (if c = quote then none else some quote) (d :: rest) with
        | some (content, after) => some (c :: content, after)
        | none => none
  | none, c :: d :: rest =>
      if kind ≠ .comment ∧ (c = '\'' ∨ c = '"') then
        match closeTag kind (some c) (d :: rest) with
        | some (content, after) => some (c :: content, after)
        | none => none
      else if c = kind.closer ∧ d = '\x7d' then
        some ([], rest)
      else
        match closeTag kind none (d :: rest) with
        | some (content, after) => some (c :: content, after)
        | none => none

def Tag.ofRaw (kind : TagKind) (dash : Bool) (raw : List Char) : Tag :=
  if raw.getLast? = some '-' then
    ⟨kind, raw.dropLast, dash, true⟩
  else
    ⟨kind, raw, dash, false⟩

def takeDash : List Char → Bool × List Char
  | '-' :: rest => (true, rest)
  | cs => (false, cs)

def readTag (kind : TagKind) (body : List Char) : Option (Tag × List Char) :=
  let (dash, inside) := takeDash body
  match closeTag kind none inside with
  | some (raw, after) => some (Tag.ofRaw kind dash raw, after)
  | none => none

def readTags : Nat → List Char → Except SyntaxFault (List (Tag × List Char))
  | budget + 1, c :: d :: body =>
      match TagKind.ofOpener? d with
      | none => .ok []
      | some kind =>
          match readTag kind body with
          | none => .error (.unclosedTag (Text.snippet (c :: d :: body)))
          | some (tag, after) =>
              let (text, later) := breakAtTag after
              match readTags budget later with
              | .ok tags => .ok ((tag, text) :: tags)
              | .error fault => .error fault
  | _, _ => .ok []

namespace Scan

/-- Cuts a template at its tags.  A template of `n` characters has fewer than `n` tags. -/
def ofChars (cs : List Char) : Except SyntaxFault Scan :=
  let (head, later) := breakAtTag cs
  match readTags cs.length later with
  | .ok tail => .ok ⟨head, tail⟩
  | .error fault => .error fault

end Scan

/-!
## White space around tags
-/

/-- Drops one line feed, with the carriage return before it. -/
def dropLineEnd : List Char → List Char
  | '\n' :: rest => rest
  | '\r' :: '\n' :: rest => rest
  | cs => cs

/-- What remains at the start of a text after a tag: a dash takes all white space, a block or
comment the line end. -/
def trimAfterTag (tag : Tag) (text : List Char) : List Char :=
  if tag.trimAfter then Text.trimStart text
  else if tag.kind = .output then text
  else dropLineEnd text

def trimBeforeTag (tag : Tag) (text : List Char) : List Char :=
  if tag.trimBefore then Text.trimEnd text else text

inductive Token where
  | text (content : List Char)
  | output (source : List Char)
  | block (source : List Char)
deriving Repr, DecidableEq

def textTokens (text : List Char) : List Token :=
  if text.isEmpty then [] else [.text text]

def Tag.tokens (tag : Tag) : List Token :=
  match tag.kind with
  | .output => [.output tag.content]
  | .block => [.block tag.content]
  | .comment => []

namespace Scan

def tokensFrom (text : List Char) : List (Tag × List Char) → List Token
  | [] => textTokens text
  | (tag, next) :: rest =>
      textTokens (trimBeforeTag tag text) ++ tag.tokens ++ tokensFrom (trimAfterTag tag next) rest

def tokens (scan : Scan) : List Token :=
  tokensFrom scan.head scan.tail

end Scan

def tokenize (source : List Char) : Except SyntaxFault (List Token) :=
  match Scan.ofChars source with
  | .ok scan => .ok scan.tokens
  | .error fault => .error fault

end Template
end TransformChain
