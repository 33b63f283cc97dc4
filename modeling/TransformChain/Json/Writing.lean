import TransformChain.Argument

/-!
# Writing JSON

The compact JSON text of an argument.  A dataset has none.
-/

namespace TransformChain
namespace Json

/-!
## Numbers
-/

/-- How numbers are written: the greatest power of ten of the leading digit below which they are
written out, and the smallest. -/
structure NumberStyle where
  smallest : Int
  greatest : Int

def numberStyle : NumberStyle :=
  ⟨-5, 15⟩

def withPoint (text : String) : String :=
  if text.toList.contains '.' then text else text ++ ".0"

def exponentText (e : Int) : String :=
  if 0 ≤ e then "e+" ++ Decimal.digitText e.toNat else "e-" ++ Decimal.digitText (-e).toNat

def scientific (x : Decimal) (leading : Int) : String :=
  match Nat.toDigits 10 x.digits with
  | [] => ""
  | [d] => String.singleton d ++ exponentText leading
  | d :: rest => String.ofList (d :: '.' :: rest) ++ exponentText leading

def magnitudeText (x : Decimal) : String :=
  let leading := Int.ofNat (Nat.toDigits 10 x.digits).length + x.exponent - 1
  if numberStyle.smallest ≤ leading && leading ≤ numberStyle.greatest then
    withPoint x.positional
  else
    scientific x leading

/-- Numbers that are not finite are written as null. -/
def floatText (x : Float) : String :=
  match Decimal.Shape.ofFloat .even x with
  | .nan => "null"
  | .infinite _ => "null"
  | .zero negative => Decimal.signed negative "0.0"
  | .finite negative magnitude => Decimal.signed negative (magnitudeText magnitude)

/-!
## Strings
-/

def hexDigit (n : Nat) : Char :=
  Nat.digitChar n

def escapeChar (c : Char) : List Char :=
  if c == '"' then ['\\', '"']
  else if c == '\\' then ['\\', '\\']
  else if c == '\n' then ['\\', 'n']
  else if c == '\r' then ['\\', 'r']
  else if c == '\t' then ['\\', 't']
  else if c.toNat == 8 then ['\\', 'b']
  else if c.toNat == 12 then ['\\', 'f']
  else if c.toNat < 32 then
    ['\\', 'u', '0', '0', hexDigit (c.toNat / 16), hexDigit (c.toNat % 16)]
  else [c]

def stringText (s : String) : String :=
  String.ofList ('"' :: s.toList.flatMap escapeChar ++ ['"'])

/-!
## Values
-/

mutual

def write : Argument → Option String
  | .null => some "null"
  | .bool b => some (if b then "true" else "false")
  | .int i => some (Value.intText i)
  | .float x => some (floatText x)
  | .str s => some (stringText s)
  | .list items =>
      (writeItems items).map (fun texts => "[" ++ Text.join "," texts ++ "]")
  | .mapping entries =>
      (writeEntries entries).map (fun texts => "\x7b" ++ Text.join "," texts ++ "\x7d")
  | .dataset _ => none

def writeItems : List Argument → Option (List String)
  | [] => some []
  | item :: rest =>
      match write item, writeItems rest with
      | some text, some texts => some (text :: texts)
      | _, _ => none

def writeEntries : List (String × Argument) → Option (List String)
  | [] => some []
  | (key, item) :: rest =>
      match write item, writeEntries rest with
      | some text, some texts => some ((stringText key ++ ":" ++ text) :: texts)
      | _, _ => none

end

end Json
end TransformChain
