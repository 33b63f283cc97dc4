import TransformChain.Decimal.Reading
import TransformChain.Decimal.Shortest

/-!
# Untyped scalars

What a plain scalar of a YAML document denotes: null, a boolean, a number or a text.
-/

namespace TransformChain
namespace Yaml

inductive Atom where
  | null
  | bool (b : Bool)
  | int (n : Int)
  | float (x : Float)
  | text (s : String)

def isNullText (s : String) : Bool :=
  s == "null" || s == "Null" || s == "NULL" || s == "~"

def boolOfText? (s : String) : Option Bool :=
  if s == "true" || s == "True" || s == "TRUE" then some true
  else if s == "false" || s == "False" || s == "FALSE" then some false
  else none

/-!
## Integers
-/

def digitIn? (base : Nat) (c : Char) : Option Nat :=
  let value :=
    if c.isDigit then some (c.toNat - '0'.toNat)
    else if 'a' ≤ c && c ≤ 'z' then some (c.toNat - 'a'.toNat + 10)
    else if 'A' ≤ c && c ≤ 'Z' then some (c.toNat - 'A'.toNat + 10)
    else none
  match value with
  | some d => if d < base then some d else none
  | none => none

def natIn? (base : Nat) (cs : List Char) : Option Nat :=
  if cs.isEmpty then
    none
  else
    cs.foldl
      (fun n c =>
        match n, digitIn? base c with
        | some n, some d => some (base * n + d)
        | _, _ => none)
      (some 0)

/-- A number in the base that its first two characters state, or else in base ten. -/
def magnitude? (cs : List Char) : Option Nat :=
  match cs with
  | '0' :: 'x' :: rest => natIn? 16 rest
  | '0' :: 'o' :: rest => natIn? 8 rest
  | '0' :: 'b' :: rest => natIn? 2 rest
  | cs => natIn? 10 cs

/-- A zero before other digits makes a text of them, whatever the sign. -/
def hasLeadingZero (cs : List Char) : Bool :=
  let digits :=
    match cs with
    | '-' :: rest => rest
    | '+' :: rest => rest
    | cs => cs
  match digits with
  | '0' :: d :: rest => (d :: rest).all Char.isDigit
  | _ => false

def integer? (s : String) : Option Int :=
  if hasLeadingZero s.toList then
    none
  else
    match s.toList with
    | '-' :: rest => (magnitude? rest).map (fun n => -Int.ofNat n)
    | '+' :: rest => (magnitude? rest).map Int.ofNat
    | cs => (magnitude? cs).map Int.ofNat

/-!
## Floats
-/

def exponent? : List Char → Option Int
  | [] => some 0
  | c :: rest =>
      if c == 'e' || c == 'E' then
        match rest with
        | '-' :: digits => (natIn? 10 digits).map (fun n => -Int.ofNat n)
        | '+' :: digits => (natIn? 10 digits).map Int.ofNat
        | digits => (natIn? 10 digits).map Int.ofNat
      else
        none

/-- Digits with at most one point among them, which may stand first or last, and an exponent. -/
def unsignedFloat? (cs : List Char) : Option Float :=
  let whole := cs.takeWhile Char.isDigit
  let afterWhole := cs.dropWhile Char.isDigit
  let (places, rest) :=
    match afterWhole with
    | '.' :: more => (more.takeWhile Char.isDigit, more.dropWhile Char.isDigit)
    | more => ([], more)
  if whole.isEmpty && places.isEmpty then
    none
  else
    (exponent? rest).map (fun e =>
      Decimal.toFloat (Decimal.natOfDigits (whole ++ places)) (e - Int.ofNat places.length))

def isInfinityText (s : String) : Bool :=
  s == ".inf" || s == ".Inf" || s == ".INF"

def float? (s : String) : Option Float :=
  if s == ".nan" || s == ".NaN" || s == ".NAN" then
    some (0.0 / 0.0)
  else
    let (negative, cs) :=
      match s.toList with
      | '-' :: rest => (true, rest)
      | '+' :: rest => (false, rest)
      | cs => (false, cs)
    if isInfinityText (String.ofList cs) then
      some (if negative then -(1.0 / 0.0) else 1.0 / 0.0)
    else
      match unsignedFloat? cs with
      | some x => if x.isInf then none else some (if negative then -x else x)
      | none => none

/-!
## Atoms
-/

/-- Whether an integer has at most 128 bits; greater ones are read as floats. -/
def isBounded (n : Int) : Bool :=
  -Int.ofNat (Nat.pow 2 127) ≤ n && n < Int.ofNat (Nat.pow 2 128)

def boundedInteger? (s : String) : Option Int :=
  match integer? s with
  | some n => if isBounded n then some n else none
  | none => none

def Atom.ofPlain (s : String) : Atom :=
  if s.isEmpty || isNullText s then .null
  else
    match boolOfText? s with
    | some b => .bool b
    | none =>
        match boundedInteger? s with
        | some n => .int n
        | none =>
            if hasLeadingZero s.toList then .text s
            else
              match float? s with
              | some x => .float x
              | none => .text s

end Yaml
end TransformChain
