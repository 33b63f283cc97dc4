import TransformChain.Argument
import TransformChain.Decimal.Reading
import TransformChain.Parser

/-!
# Reading JSON

Reads the arguments of a transform from a JSON object.  A key given twice keeps its first place
and its last value.
-/

namespace TransformChain
namespace Json

open TransformChain.Parser

def token (p : Parser α) : Parser α := do
  gap
  p

/-!
## Strings
-/

def hexValue? (c : Char) : Option Nat :=
  if c.isDigit then some (c.toNat - '0'.toNat)
  else if 'a' ≤ c && c ≤ 'f' then some (c.toNat - 'a'.toNat + 10)
  else if 'A' ≤ c && c ≤ 'F' then some (c.toNat - 'A'.toNat + 10)
  else none

def hexFour? : List Char → Option (Nat × List Char)
  | a :: b :: c :: d :: rest =>
      match hexValue? a, hexValue? b, hexValue? c, hexValue? d with
      | some a, some b, some c, some d => some (4096 * a + 256 * b + 16 * c + d, rest)
      | _, _, _, _ => none
  | _ => none

/-- The character that two surrogate halves stand for. -/
def paired (high low : Nat) : Char :=
  Char.ofNat (0x10000 + (high - 0xD800) * 0x400 + (low - 0xDC00))

/-- The character of a code escape, whose half pairs must be complete; `rest` follows the letter. -/
def unicodeEscape? (rest : List Char) : Option (Char × List Char) :=
  match hexFour? rest with
  | none => none
  | some (code, after) =>
      if 0xDC00 ≤ code && code ≤ 0xDFFF then
        none
      else if 0xD800 ≤ code && code ≤ 0xDBFF then
        match after with
        | '\\' :: 'u' :: more =>
            match hexFour? more with
            | some (low, final) =>
                if 0xDC00 ≤ low && low ≤ 0xDFFF then some (paired code low, final) else none
            | none => none
        | _ => none
      else
        some (Char.ofNat code, after)

def escape? : List Char → Option (Char × List Char)
  | [] => none
  | c :: rest =>
      match c with
      | '"' => some ('"', rest)
      | '\\' => some ('\\', rest)
      | '/' => some ('/', rest)
      | 'b' => some (Char.ofNat 8, rest)
      | 'f' => some (Char.ofNat 12, rest)
      | 'n' => some ('\n', rest)
      | 'r' => some ('\r', rest)
      | 't' => some ('\t', rest)
      | 'u' => unicodeEscape? rest
      | _ => none

/-- The content of a string up to the closing quote; control characters must be escaped. -/
def stringBody : Nat → List Char → Option (List Char × List Char)
  | 0, _ => none
  | _, [] => none
  | budget + 1, c :: rest =>
      if c == '"' then
        some ([], rest)
      else if c == '\\' then
        match escape? rest with
        | none => none
        | some (d, after) => (stringBody budget after).map (fun r => (d :: r.1, r.2))
      else if c.toNat < 32 then
        none
      else
        (stringBody budget rest).map (fun r => (c :: r.1, r.2))

def string : Parser String :=
  fun cs =>
    match cs with
    | '"' :: rest =>
        match stringBody (rest.length + 1) rest with
        | some (content, after) => .accepted (String.ofList content) after
        | none => .rejected cs
    | _ => .rejected cs

/-!
## Numbers

A number without fraction and exponent is an integer where it fits 64 bits.  Every other number
is the significand made of its leading digits, scaled by a power of ten in double precision.
-/

structure Numeral where
  negative : Bool
  whole : List Char
  places : Option (List Char)
  exponent : Option Int

def sign : Parser Bool := do
  let mark ← Parser.optional (char '-')
  return mark.isSome

def wholeDigits : Parser (List Char) :=
  verify (takeWhile1 Char.isDigit) (fun ds => ds.head? != some '0' || ds.length == 1)

def placeDigits : Parser (List Char) := do
  let _ ← char '.'
  takeWhile1 Char.isDigit

def exponentPart : Parser Int := do
  let _ ← satisfy (fun c => c == 'e' || c == 'E')
  let mark ← Parser.optional (satisfy (fun c => c == '+' || c == '-'))
  let digits ← takeWhile1 Char.isDigit
  let size := Int.ofNat (Decimal.natOfDigits digits)
  return if mark == some '-' then -size else size

/-- A part that is absent only where its first character is. -/
def partAfter (starts : Char → Bool) (p : Parser α) : Parser (Option α) :=
  fun cs =>
    if cs.head?.any starts then (some <$> p) cs else .accepted none cs

def numeral : Parser Numeral := do
  let negative ← sign
  let whole ← wholeDigits
  let places ← partAfter (fun c => c == '.') placeDigits
  let exponent ← partAfter (fun c => c == 'e' || c == 'E') exponentPart
  return ⟨negative, whole, places, exponent⟩

def greatestSignificand : Nat := Nat.pow 2 64 - 1

/-- The number of the leading digits that fit 64 bits, and the digits after them. -/
def significand (n : Nat) : List Char → Nat × List Char
  | [] => (n, [])
  | d :: rest =>
      let next := 10 * n + Decimal.digitValue d
      if greatestSignificand < next then (n, d :: rest) else significand next rest

def greatestPower : Nat := 308

def power (k : Nat) : Float :=
  Float.ofScientific 1 false k

def scaled? : Nat → Float → Int → Option Float
  | 0, x, _ => some x
  | budget + 1, x, exponent =>
      if exponent.natAbs ≤ greatestPower then
        if 0 ≤ exponent then
          let y := x * power exponent.natAbs
          if y.isInf then none else some y
        else
          some (x / power exponent.natAbs)
      else if x == 0.0 then
        some x
      else if 0 ≤ exponent then
        none
      else
        scaled? budget (x / power greatestPower) (exponent + greatestPower)

def Numeral.float? (n : Numeral) : Option Float :=
  let places := n.places.getD []
  let (leading, cut) := significand 0 n.whole
  let (digits, left) := significand leading places
  let shift := Int.ofNat cut.length - Int.ofNat (places.length - left.length)
  let size := scaled? 8 (Float.ofNat digits) (shift + n.exponent.getD 0)
  size.map (fun x => if n.negative then -x else x)

def Numeral.value? (n : Numeral) : Option Argument :=
  match n.places, n.exponent with
  | none, none =>
      let size := Int.ofNat (Decimal.natOfDigits n.whole)
      if n.negative && size = 0 then
        some (.float (-0.0))
      else
        match Decimal.toInt64? (if n.negative then -size else size) with
        | some i => some (.int i)
        | none => n.float?.map Argument.float
  | _, _ => n.float?.map Argument.float

def number : Parser Argument :=
  mapSome numeral Numeral.value?

/-!
## Values
-/

def literal (text : String) (value : Argument) : Parser Argument := do
  exactly text
  return value

def collection (opening closing : Char) (part : Parser α) : Parser (List α) := do
  let _ ← char opening
  let parts ← separated (token (char ',')) (token part)
  let _ ← token (char closing)
  return parts

def member (value : Parser α) : Parser (String × α) := do
  let name ← string
  let _ ← token (char ':')
  let content ← token value
  return (name, content)

/-- A value whose collections nest at most as deep as the budget. -/
def value : Nat → Parser Argument
  | 0 => reject
  | budget + 1 =>
      oneOf [
        literal "null" .null,
        literal "true" (.bool true),
        literal "false" (.bool false),
        number,
        Argument.str <$> string,
        if budget = 0 then reject else Argument.list <$> collection '[' ']' (value budget),
        if budget = 0 then reject
        else (fun members => Argument.mapping (Keyed.ofPairs members)) <$>
          collection '\x7b' '\x7d' (member (value budget))]

def nestingLimit : Nat := 128

def arguments : Parser (Keyed Argument) := do
  let members ← token (collection '\x7b' '\x7d' (member (value (nestingLimit - 1))))
  gap
  return Keyed.ofPairs members

def readArguments (text : String) : Option (Keyed Argument) :=
  match whole arguments text.toList with
  | .accepted result _ => some result
  | _ => none

end Json
end TransformChain
