import TransformChain.Decimal.Shortest
import TransformChain.Keyed
import TransformChain.Number.Nearest
import TransformChain.Text.Join

/-!
# Template values

The values that template expressions compute with, their text, and how they compare.
-/

namespace TransformChain

/-- A value of the template language.  The keys of a mapping are distinct and keep their order. -/
inductive Value where
  | null
  | bool (b : Bool)
  | int (i : Int64)
  | float (x : Float)
  | str (s : String)
  | list (items : List Value)
  | map (entries : List (String × Value))
deriving Inhabited

namespace Value

/-!
## Kinds
-/

inductive Kind where
  | none
  | boolean
  | integer
  | float
  | string
  | list
  | mapping
deriving Repr, DecidableEq

def Kind.name : Kind → String
  | .none => "none"
  | .boolean => "boolean"
  | .integer => "integer"
  | .float => "float"
  | .string => "string"
  | .list => "list"
  | .mapping => "mapping"

def kind : Value → Kind
  | null => .none
  | bool _ => .boolean
  | int _ => .integer
  | float _ => .float
  | str _ => .string
  | list _ => .list
  | map _ => .mapping

def isNull : Value → Bool
  | null => true
  | _ => false

/-- Null, false, zero, and empty texts and collections do not hold; NaN does. -/
def holds : Value → Bool
  | null => false
  | bool b => b
  | int i => i != 0
  | float x => x != 0.0
  | str s => s != ""
  | list items => !items.isEmpty
  | map entries => !entries.isEmpty

def asString? : Value → Option String
  | str s => some s
  | _ => none

/-!
## Text
-/

def intText (i : Int64) : String :=
  match i.toInt with
  | .ofNat n => Decimal.digitText n
  | .negSucc n => "-" ++ Decimal.digitText (n + 1)

mutual

/-- The text that a value prints as: nothing for null, items and keys separated by commas. -/
def display : Value → String
  | null => ""
  | bool true => "TRUE"
  | bool false => "FALSE"
  | int i => intText i
  | float x => Decimal.plainText x
  | str s => s
  | list items => Text.join ", " (displayAll items)
  | map entries => Text.join ", " (entries.map Prod.fst)

def displayAll : List Value → List String
  | [] => []
  | item :: rest => display item :: displayAll rest

end

/-!
## Equality and order

Integers and floats are equal when they denote the same number, but only as whole values: inside
collections an integer never equals a float.  Mappings are equal whatever the order of their keys.
-/

mutual

def same : Value → Value → Bool
  | null, null => true
  | bool a, bool b => a == b
  | int a, int b => a == b
  | float a, float b => a == b
  | str a, str b => a == b
  | list as, list bs => sameItems as bs
  | map as, map bs => as.length == bs.length && sameEntries as bs
  | _, _ => false

def sameItems : List Value → List Value → Bool
  | [], [] => true
  | a :: as, b :: bs => same a b && sameItems as bs
  | _, _ => false

def sameEntries : List (String × Value) → List (String × Value) → Bool
  | [], _ => true
  | (key, a) :: rest, others =>
      match Keyed.get? key others with
      | some b => same a b && sameEntries rest others
      | none => false

end

def looselyEquals (a b : Value) : Bool :=
  match a, b with
  | int i, float x => Number.nearest i == x
  | float x, int i => Number.nearest i == x
  | _, _ => same a b

def number? : Value → Option Float
  | int i => some (Number.nearest i)
  | float x => some x
  | _ => none

def compareFloats (x y : Float) : Option Ordering :=
  if x < y then some .lt
  else if y < x then some .gt
  else if x == y then some .eq
  else none

/-- Strings are ordered by code points, numbers as floats; nothing else is ordered. -/
def compare? (a b : Value) : Option Ordering :=
  match a, b with
  | str s, str t => some (compare s t)
  | _, _ =>
      match number? a, number? b with
      | some x, some y => compareFloats x y
      | _, _ => none

end Value
end TransformChain
