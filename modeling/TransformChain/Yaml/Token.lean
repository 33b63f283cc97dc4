import TransformChain.Yaml.Scalar

/-!
# Tokens of a document

Cuts a YAML document into tokens.  Indentation opens and closes blocks, and a scalar turns out to
be a key only when the colon after it is met, so the scanner remembers where a key could begin.
-/

namespace TransformChain
namespace Yaml

inductive Token where
  | directive (shorthand : Option (String × String))
  | documentStart
  | documentEnd
  | blockSequenceStart
  | blockMappingStart
  | blockEnd
  | blockEntry
  | flowSequenceStart
  | flowSequenceEnd
  | flowMappingStart
  | flowMappingEnd
  | flowEntry
  | key
  | value
  | reference (name : String)
  | anchor (name : String)
  | tag (handle text : String)
  | scalar (plain : Bool) (text : String)
deriving Repr, DecidableEq

/-- A place where a key may have begun: how many tokens come before it, and whether it must be
one. -/
structure KeyPlace where
  required : Bool
  number : Nat
  index : Nat
  line : Nat
  column : Nat

/-- The scanner's place, the flow collections and blocks it is in, for each of the flow
collections the place where a key may have begun, and the tokens so far. -/
structure Scanner where
  cursor : Cursor
  flow : Nat
  indent : Int
  indents : List Int
  keys : List (Option KeyPlace)
  keyAllowed : Bool
  tokens : Array Token

namespace Scanner

def start (cs : List Char) : Scanner :=
  ⟨Cursor.ofChars cs, 0, -1, [], [none], true, #[]⟩

def inFlow (s : Scanner) : Bool :=
  s.flow != 0

def push (s : Scanner) (token : Token) : Scanner :=
  { s with tokens := s.tokens.push token }

def allowKey (s : Scanner) (allowed : Bool) : Scanner :=
  { s with keyAllowed := allowed }

/-!
## Keys
-/

def keyLimit : Nat := 1024

def isStale (s : Scanner) (place : KeyPlace) : Bool :=
  place.line < s.cursor.line || place.index + keyLimit < s.cursor.index

/-- Forgets the places where no key can have begun any more; a required key must not be lost. -/
def dropStale (s : Scanner) : Option Scanner :=
  let stale (key : Option KeyPlace) : Bool :=
    match key with
    | some place => s.isStale place
    | none => false
  let lost (key : Option KeyPlace) : Bool :=
    match key with
    | some place => s.isStale place && place.required
    | none => false
  if s.keys.any lost then
    none
  else
    some { s with keys := s.keys.map (fun key => if stale key then none else key) }

def forgetKey (s : Scanner) : Option Scanner :=
  match s.keys with
  | some place :: outer => if place.required then none else some { s with keys := none :: outer }
  | _ => some s

def markKey (s : Scanner) : Option Scanner :=
  if s.keyAllowed then
    match s.forgetKey with
    | none => none
    | some t =>
        let place : KeyPlace := {
          required := !s.inFlow && s.indent == Int.ofNat s.cursor.column
          number := s.tokens.size
          index := s.cursor.index
          line := s.cursor.line
          column := s.cursor.column }
        some { t with keys := some place :: t.keys.drop 1 }
  else
    some s

/-!
## Indentation
-/

/-- Opens a block at the column unless one is open there; its token comes at the given place. -/
def openBlock (s : Scanner) (column : Nat) (place : Nat) (token : Token) : Scanner :=
  if s.inFlow || Int.ofNat column ≤ s.indent then
    s
  else
    { s with
      indents := s.indent :: s.indents
      indent := Int.ofNat column
      tokens := s.tokens.insertIdxIfInBounds place token }

def closeFrom (column : Int) (s : Scanner) : List Int → Scanner
  | [] => { s with indents := [] }
  | outer :: rest =>
      if column < s.indent then
        closeFrom column { s.push .blockEnd with indent := outer } rest
      else
        { s with indents := outer :: rest }

def closeBlocks (s : Scanner) (column : Int) : Scanner :=
  if s.inFlow then s else closeFrom column s s.indents

/-!
## White space
-/

/-- Passes spaces, comments and line breaks.  A tab may not come where a key may begin. -/
def toToken : Nat → Scanner → Scanner
  | 0, s => s
  | budget + 1, s =>
      let passes (c : Char) : Bool := c == ' ' || ((s.inFlow || !s.keyAllowed) && c == '\t')
      let (_, blanks) := s.cursor.readWhile passes
      let (_, lineEnd) :=
        if blanks.peek? == some '#' then blanks.readWhile (fun c => !isBreak c) else ([], blanks)
      match lineEnd.rest with
      | [] => { s with cursor := lineEnd }
      | c :: _ =>
          if isBreak c then
            toToken budget
              { s with cursor := lineEnd.nextLine, keyAllowed := s.keyAllowed || !s.inFlow }
          else
            { s with cursor := lineEnd }

/-!
## Tokens by kind
-/

def take (s : Scanner) (count : Nat) (token : Token) : Scanner :=
  { s.push token with cursor := s.cursor.skip count }

def marker (s : Scanner) (token : Token) : Option Scanner :=
  match (s.closeBlocks (-1)).forgetKey with
  | none => none
  | some t => some ((t.allowKey false).take 3 token)

def openFlow (s : Scanner) (token : Token) : Option Scanner :=
  match s.markKey with
  | none => none
  | some t =>
      some ({ t.allowKey true with flow := t.flow + 1, keys := none :: t.keys }.take 1 token)

def closeFlow (s : Scanner) (token : Token) : Option Scanner :=
  match s.forgetKey with
  | none => none
  | some t =>
      let outer := if t.flow = 0 then t.keys else t.keys.drop 1
      some ({ t.allowKey false with flow := t.flow - 1, keys := outer }.take 1 token)

def flowEntry (s : Scanner) : Option Scanner :=
  match s.forgetKey with
  | none => none
  | some t => some ((t.allowKey true).take 1 .flowEntry)

def blockEntry (s : Scanner) : Option Scanner :=
  if !s.inFlow && !s.keyAllowed then
    none
  else
    let opened := s.openBlock s.cursor.column s.tokens.size .blockSequenceStart
    match opened.forgetKey with
    | none => none
    | some t => some ((t.allowKey true).take 1 .blockEntry)

def explicitKey (s : Scanner) : Option Scanner :=
  if !s.inFlow && !s.keyAllowed then
    none
  else
    let opened := s.openBlock s.cursor.column s.tokens.size .blockMappingStart
    match opened.forgetKey with
    | none => none
    | some t => some ((t.allowKey (!t.inFlow)).take 1 .key)

/-- A colon makes a key of what began at the remembered place, or else begins the value of an
empty key. -/
def value (s : Scanner) : Option Scanner :=
  match s.keys with
  | some place :: outer =>
      let keyed := {
        s with
        tokens := s.tokens.insertIdxIfInBounds place.number .key
        keys := none :: outer }
      let opened := keyed.openBlock place.column place.number .blockMappingStart
      some ((opened.allowKey false).take 1 .value)
  | _ =>
      if !s.inFlow && !s.keyAllowed then
        none
      else
        let opened := s.openBlock s.cursor.column s.tokens.size .blockMappingStart
        some ((opened.allowKey (!s.inFlow)).take 1 .value)

def isNameChar (c : Char) : Bool :=
  c.isAlphanum || c == '_' || c == '-'

def endsName : List Char → Bool
  | [] => true
  | c :: _ =>
      isSpace c || isBreak c || c == '?' || c == ':' || c == ',' || c == ']' || c == '\x7d' ||
        c == '%' || c == '@' || c == Char.ofNat 96

/-- An anchor or alias; `build` makes the token of its name. -/
def named (s : Scanner) (build : String → Token) : Option Scanner :=
  match s.markKey with
  | none => none
  | some t =>
      let (name, after) := (t.cursor.skip 1).readWhile isNameChar
      if name.isEmpty || !endsName after.rest then
        none
      else
        some { (t.allowKey false).push (build (String.ofList name)) with cursor := after }

def isTagChar (verbatim : Bool) (c : Char) : Bool :=
  isNameChar c || ";/?:@&=+$.%!~*'()".toList.contains c ||
    (verbatim && (c == ',' || c == '[' || c == ']'))

def readTag (cursor : Cursor) : Option (String × String × Cursor) :=
  match cursor.rest with
  | '!' :: '<' :: _ =>
      let (text, after) := (cursor.skip 2).readWhile (isTagChar true)
      if !text.isEmpty && after.peek? == some '>' then
        some ("", String.ofList text, after.skip 1)
      else
        none
  | _ =>
      let (word, afterWord) := (cursor.skip 1).readWhile isNameChar
      if afterWord.peek? == some '!' then
        let (text, after) := (afterWord.skip 1).readWhile (isTagChar false)
        if text.isEmpty then none
        else some ("!" ++ String.ofList word ++ "!", String.ofList text, after)
      else
        let (text, after) := (cursor.skip 1).readWhile (isTagChar false)
        some ("!", String.ofList text, after)

def tagged (s : Scanner) : Option Scanner :=
  match s.markKey with
  | none => none
  | some t =>
      match readTag t.cursor with
      | none => none
      | some (handle, text, after) =>
          if atBlank after.rest || (s.inFlow && after.peek? == some ',') then
            some { (t.allowKey false).push (.tag handle text) with cursor := after }
          else
            none

def blockScalar (s : Scanner) (literal : Bool) : Option Scanner :=
  match s.forgetKey with
  | none => none
  | some t =>
      match readBlock literal t.indent t.cursor with
      | none => none
      | some (text, after) =>
          some { (t.allowKey true).push (.scalar false (String.ofList text)) with cursor := after }

def quotedScalar (s : Scanner) (single : Bool) : Option Scanner :=
  match s.markKey with
  | none => none
  | some t =>
      match readQuoted single t.cursor with
      | none => none
      | some (text, after) =>
          some { (t.allowKey false).push (.scalar false (String.ofList text)) with
            cursor := after }

def plainScalar (s : Scanner) : Option Scanner :=
  match s.markKey with
  | none => none
  | some t =>
      match readPlain t.inFlow (t.indent + 1) t.cursor with
      | none => none
      | some (text, crossed, after) =>
          some { (t.allowKey crossed).push (.scalar true (String.ofList text)) with
            cursor := after }

def wordsOf (cs : List Char) : List (List Char) :=
  (cs.splitBy (fun a b => isSpace a == isSpace b)).filter (fun part => !(part.head?.any isSpace))

def directiveToken? (name : String) (rest : List Char) : Option Token :=
  let words := ((wordsOf rest).takeWhile (fun w => w.head? != some '#')).map String.ofList
  match name, words with
  | "YAML", [version] =>
      if version = "1.1" || version = "1.2" then some (.directive none) else none
  | "TAG", [handle, text] => some (.directive (some (handle, text)))
  | _, _ => none

def directive (s : Scanner) : Option Scanner :=
  match (s.closeBlocks (-1)).forgetKey with
  | none => none
  | some t =>
      let (line, after) := (t.cursor.skip 1).readWhile (fun c => !isBreak c)
      let name := line.takeWhile isNameChar
      match directiveToken? (String.ofList name) (line.drop name.length) with
      | none => none
      | some token => some { (t.allowKey false).push token with cursor := after.nextLine }

/-!
## Scanning
-/

def indicators : List Char :=
  "-?:,[]\x7b\x7d#&*!|>'\"%@\x60".toList

def startsPlain (inFlow : Bool) (c : Char) (rest : List Char) : Bool :=
  !(indicators.contains c || isSpace c || isBreak c) ||
    (c == '-' && !(rest.head?.any isSpace)) ||
    (!inFlow && (c == '?' || c == ':') && !atBlank rest)

def next (s : Scanner) (c : Char) (rest : List Char) : Option Scanner :=
  if s.cursor.column == 0 && c == '%' then s.directive
  else if s.cursor.atMarker then
    s.marker (if c == '-' then .documentStart else .documentEnd)
  else if c == '[' then s.openFlow .flowSequenceStart
  else if c == '\x7b' then s.openFlow .flowMappingStart
  else if c == ']' then s.closeFlow .flowSequenceEnd
  else if c == '\x7d' then s.closeFlow .flowMappingEnd
  else if c == ',' then s.flowEntry
  else if c == '-' && atBlank rest then s.blockEntry
  else if c == '?' && (s.inFlow || atBlank rest) then s.explicitKey
  else if c == ':' && (s.inFlow || atBlank rest) then s.value
  else if c == '*' then s.named .reference
  else if c == '&' then s.named .anchor
  else if c == '!' then s.tagged
  else if c == '|' && !s.inFlow then s.blockScalar true
  else if c == '>' && !s.inFlow then s.blockScalar false
  else if c == '\'' then s.quotedScalar true
  else if c == '"' then s.quotedScalar false
  else if startsPlain s.inFlow c rest then s.plainScalar
  else none

/-- Every token takes at least one character, so the length of the document bounds the steps. -/
def run : Nat → Scanner → Option (List Token)
  | 0, _ => none
  | budget + 1, s =>
      let t := toToken (s.cursor.rest.length + 1) s
      match t.dropStale with
      | none => none
      | some u =>
          let v := u.closeBlocks (Int.ofNat u.cursor.column)
          match v.cursor.rest with
          | [] =>
              match (v.closeBlocks (-1)).forgetKey with
              | none => none
              | some last => some last.tokens.toList
          | c :: rest =>
              match v.next c rest with
              | none => none
              | some w => run budget w

end Scanner

def scan (text : String) : Option (List Token) :=
  let cs :=
    match text.toList with
    | c :: rest => if c.toNat == 0xFEFF then rest else c :: rest
    | [] => []
  if cs.all isAllowed then Scanner.run (cs.length + 1) (Scanner.start cs) else none

end Yaml
end TransformChain
