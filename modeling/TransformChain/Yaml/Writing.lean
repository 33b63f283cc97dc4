import TransformChain.Text.Join
import TransformChain.Yaml.Atom
import TransformChain.Yaml.Cursor

/-!
# Writing documents

Writes records, lists and texts as a block document.  A text stands plain where it reads back as
the same text, and in quotes otherwise; a text of several lines becomes a literal block.
-/

namespace TransformChain
namespace Yaml

/-!
## Traits of texts
-/

def hasPair (first second : α → Bool) : List α → Bool
  | a :: b :: rest => (first a && second b) || hasPair first second (b :: rest)
  | _ => false

def isPrintable (c : Char) : Bool :=
  isAllowed c && c != '\t' && c != '\r' && c.toNat != 0x85

def isBlankOrBreak (c : Char) : Bool :=
  isSpace c || isBreak c

def leadingMarks : List Char :=
  "#,[]\x7b\x7d&*!|>'\"%@\x60".toList

def startsMarked : List Char → Bool
  | [] => false
  | c :: rest => leadingMarks.contains c || ((c == '?' || c == '-') && atBlank rest)

/-- Whether a plain text would be taken for something else than one scalar. -/
def isMarked (cs : List Char) : Bool :=
  Text.startsWith "---".toList cs || Text.startsWith "...".toList cs || startsMarked cs ||
    hasPair (fun c => c == ':') isBlankOrBreak cs || cs.getLast? == some ':' ||
    hasPair isBlankOrBreak (fun c => c == '#') cs

def beginsWith (p : Char → Bool) (cs : List Char) : Bool :=
  cs.head?.any p

def endsWith (p : Char → Bool) (cs : List Char) : Bool :=
  cs.getLast?.any p

def isBlankSpace (c : Char) : Bool :=
  c == ' '

/-- Whether every character can stand unescaped, and no space stands before a line break. -/
def isUnescaped (cs : List Char) : Bool :=
  cs.all isPrintable && !hasPair isBlankSpace isBreak cs

def allowsLiteral (cs : List Char) : Bool :=
  isUnescaped cs && !endsWith isBlankSpace cs

def allowsSingleQuotes (cs : List Char) : Bool :=
  isUnescaped cs && !hasPair isBreak isBlankSpace cs

def allowsPlain (cs : List Char) : Bool :=
  isUnescaped cs && !cs.any isBreak && !beginsWith isBlankSpace cs && !endsWith isBlankSpace cs &&
    !isMarked cs

/-- Whether a plain scalar of these characters denotes a text that nobody takes for a number. -/
def readsAsText (s : String) : Bool :=
  match Atom.ofPlain s with
  | .text _ => !hasLeadingZero s.toList
  | _ => false

/-!
## Scalars
-/

inductive ScalarForm where
  | plain
  | singleQuoted
  | doubleQuoted
  | literal
deriving Repr, DecidableEq

def scalarForm (s : String) : ScalarForm :=
  let cs := s.toList
  if cs.contains '\n' then
    if allowsLiteral cs then .literal else .doubleQuoted
  else if readsAsText s && allowsPlain cs then .plain
  else if allowsSingleQuotes cs then .singleQuoted
  else .doubleQuoted

def margin (indent : Nat) : List Char :=
  List.replicate indent ' '

/-- The characters with a margin in front of each line that is not empty. -/
def withMargins (indent : Nat) : Bool → List Char → List Char
  | _, [] => []
  | afterBreak, c :: rest =>
      if isBreak c then c :: withMargins indent true rest
      else if afterBreak then margin indent ++ c :: withMargins indent false rest
      else c :: withMargins indent false rest

def doubledQuote (c : Char) : List Char :=
  if c == '\'' then ['\'', '\''] else [c]

def singleQuoted (indent : Nat) (cs : List Char) : List Char :=
  '\'' :: withMargins indent false (cs.flatMap doubledQuote) ++
    (if endsWith isBreak cs then margin indent else []) ++ ['\'']

def upperHexDigits (count n : Nat) : List Char :=
  (List.range count).reverse.map (fun k => (Nat.digitChar (n / Nat.pow 16 k % 16)).toUpper)

def escapedChar (c : Char) : List Char :=
  if c == '"' then ['\\', '"']
  else if c == '\\' then ['\\', '\\']
  else if isPrintable c && !isBreak c then [c]
  else
    match c.toNat with
    | 0x0 => ['\\', '0']
    | 0x7 => ['\\', 'a']
    | 0x8 => ['\\', 'b']
    | 0x9 => ['\\', 't']
    | 0xA => ['\\', 'n']
    | 0xB => ['\\', 'v']
    | 0xC => ['\\', 'f']
    | 0xD => ['\\', 'r']
    | 0x1B => ['\\', 'e']
    | 0x85 => ['\\', 'N']
    | 0x2028 => ['\\', 'L']
    | 0x2029 => ['\\', 'P']
    | code =>
        if code ≤ 0xFF then '\\' :: 'x' :: upperHexDigits 2 code
        else if code ≤ 0xFFFF then '\\' :: 'u' :: upperHexDigits 4 code
        else '\\' :: 'U' :: upperHexDigits 8 code

def doubleQuoted (cs : List Char) : List Char :=
  '"' :: cs.flatMap escapedChar ++ ['"']

/-- What the header of a literal block says about the line breaks at its end: nothing about a
single one. -/
def chompingMark (cs : List Char) : List Char :=
  match cs.reverse with
  | last :: before =>
      if !isBreak last then ['-']
      else
        match before with
        | [] => ['+']
        | previous :: _ => if isBreak previous then ['+'] else []
  | [] => ['-']

/-- The width of the margin, stated where the first line cannot show it. -/
def marginMark (cs : List Char) : List Char :=
  if beginsWith (fun c => isBlankSpace c || isBreak c) cs then ['2'] else []

def literalBlock (indent : Nat) (cs : List Char) : List Char :=
  '|' :: marginMark cs ++ chompingMark cs ++ '\n' :: withMargins indent true cs

/-- The text after a key or a dash, up to the beginning of the next line.  Lines of its own stand
behind the margin. -/
def scalarLines (indent : Nat) (s : String) : List Char :=
  let cs := s.toList
  match scalarForm s with
  | .plain => cs ++ ['\n']
  | .singleQuoted => singleQuoted indent cs ++ ['\n']
  | .doubleQuoted => doubleQuoted cs ++ ['\n']
  | .literal => literalBlock indent cs ++ (if endsWith isBreak cs then [] else ['\n'])

/-!
## Blocks
-/

inductive Block where
  | number (n : Nat)
  | text (s : String)
  | list (items : List Block)
  | record (fields : List (String × Block))

namespace Block

mutual

/-- What follows the key of a field in a record behind the given margin.  The items of a list keep
that margin. -/
def fieldLines (indent : Nat) : Block → List Char
  | .number n => ' ' :: (Decimal.digitText n).toList ++ ['\n']
  | .text s => ' ' :: scalarLines (indent + 2) s
  | .list [] => " []\n".toList
  | .list items => '\n' :: itemLines indent items
  | .record [] => " \x7b\x7d\n".toList
  | .record fields => '\n' :: margin (indent + 2) ++ recordLines (indent + 2) fields

/-- The fields of a record; the margin of the first one is written already. -/
def recordLines (indent : Nat) : List (String × Block) → List Char
  | [] => []
  | [(key, block)] => key.toList ++ ':' :: fieldLines indent block
  | (key, block) :: rest =>
      key.toList ++ ':' :: fieldLines indent block ++ margin indent ++ recordLines indent rest

def afterDash (indent : Nat) : Block → List Char
  | .number n => (Decimal.digitText n).toList ++ ['\n']
  | .text s => scalarLines indent s
  | .list [] => "[]\n".toList
  | .list items => (itemLines indent items).drop indent
  | .record [] => "\x7b\x7d\n".toList
  | .record fields => recordLines indent fields

def itemLines (indent : Nat) : List Block → List Char
  | [] => []
  | item :: rest =>
      margin indent ++ '-' :: ' ' :: afterDash (indent + 2) item ++ itemLines indent rest

end

def document (fields : List (String × Block)) : String :=
  String.ofList (recordLines 0 fields)

end Block
end Yaml
end TransformChain
