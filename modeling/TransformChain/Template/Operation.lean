import TransformChain.Error
import TransformChain.Literal
import TransformChain.Number.Remainder
import TransformChain.Template.Expr
import TransformChain.Text.Blank
import TransformChain.Text.Case

/-!
# Operations on values

Indexing, operators, tests, filters and methods of the template language.  None of them depends on
where it is used.
-/

namespace TransformChain
namespace Template

abbrev Operated (α : Type) := Except EvaluationFault α

namespace Operation

/-!
## Attributes, indices and membership
-/

/-- The entry of a mapping; a key that is not there reads as null. -/
def attr (name : String) : Value → Operated Value
  | .map entries => .ok ((Keyed.get? name entries).getD .null)
  | other => .error (.noAttribute other.kind name)

/-- An entry of a mapping or an item of a list.  Negative indices count from the end. -/
def index (base key : Value) : Operated Value :=
  match base, key with
  | .map entries, key => .ok ((Keyed.get? key.display entries).getD .null)
  | .list items, .int i =>
      let position := if i < 0 then Int.ofNat items.length + i.toInt else i.toInt
      if position < 0 then
        .error (.indexOutOfRange i)
      else
        match items[position.toNat]? with
        | some item => .ok item
        | none => .error (.indexOutOfRange i)
  | base, key => .error (.notIndexable base.kind key.kind)

/-- Whether a collection or text holds the value; null holds nothing. -/
def contains (whole part : Value) : Operated Bool :=
  match whole with
  | .list items => .ok (items.any (fun item => item.looselyEquals part))
  | .map entries => .ok (Keyed.contains part.display entries)
  | .str s =>
      match part with
      | .str t => .ok (Text.containsPart t.toList s.toList)
      | other => .error (.needleNotString other.kind)
  | .null => .ok false
  | other => .error (.notSearchable other.kind)

/-!
## Arithmetic

Sums, differences and products of integers wrap at 64 bits.  Quotients are floats.
-/

def intArithmetic (op : BinaryOp) (a b : Int64) : Operated Value :=
  match op with
  | .add => .ok (.int (a + b))
  | .sub => .ok (.int (a - b))
  | .mul => .ok (.int (a * b))
  | .div =>
      if b = 0 then .error .divisionByZero
      else .ok (.float (Number.nearest a / Number.nearest b))
  | _ =>
      if b = 0 then
        .error .moduloByZero
      else
        match Number.intRemainder? a b with
        | some r => .ok (.int r)
        | none => .error (.moduloOverflow a b)

def floatArithmetic (op : BinaryOp) (x y : Float) : Operated Value :=
  match op with
  | .add => .ok (.float (x + y))
  | .sub => .ok (.float (x - y))
  | .mul => .ok (.float (x * y))
  | .div => if y == 0.0 then .error .divisionByZero else .ok (.float (x / y))
  | _ =>
      if y == 0.0 then .error .moduloByZero else .ok (.float (Number.floatRemainder x y))

def arithmetic (op : BinaryOp) (left right : Value) : Operated Value :=
  match left, right with
  | .int a, .int b => intArithmetic op a b
  | left, right =>
      match left.number?, right.number? with
      | some x, some y => floatArithmetic op x y
      | _, _ => .error (.badOperands left.kind right.kind)

def sum (left right : Value) : Operated Value :=
  match left, right with
  | .str s, .str t => .ok (.str (s ++ t))
  | .list as, .list bs => .ok (.list (as ++ bs))
  | left, right => arithmetic .add left right

def compared (test : Ordering → Bool) (left right : Value) : Operated Value :=
  match left.compare? right with
  | some ordering => .ok (.bool (test ordering))
  | none => .error (.notComparable left.kind right.kind)

def asValue : Operated Bool → Operated Value
  | .ok b => .ok (.bool b)
  | .error fault => .error fault

def negatedValue : Operated Bool → Operated Value
  | .ok b => .ok (.bool (!b))
  | .error fault => .error fault

def binary (op : BinaryOp) (left right : Value) : Operated Value :=
  match op with
  | .eq => .ok (.bool (left.looselyEquals right))
  | .ne => .ok (.bool (!left.looselyEquals right))
  | .lt => compared Ordering.isLT left right
  | .le => compared Ordering.isLE left right
  | .gt => compared Ordering.isGT left right
  | .ge => compared Ordering.isGE left right
  | .mem => asValue (contains right left)
  | .notMem => negatedValue (contains right left)
  | .concat => .ok (.str (left.display ++ right.display))
  | .add => sum left right
  | op => arithmetic op left right

def negate : Value → Operated Value
  | .int i =>
      match Number.negated? i with
      | some n => .ok (.int n)
      | none => .error (.negationOverflow i)
  | .float x => .ok (.float (-x))
  | other => .error (.notNegatable other.kind)

/-!
## Tests
-/

def test (name : String) (value : Value) : Operated Bool :=
  match name with
  | "none" => .ok value.isNull
  | "string" => .ok (value.kind == .string)
  | "mapping" => .ok (value.kind == .mapping)
  | "sequence" | "iterable" =>
      .ok (value.kind == .list || value.kind == .mapping || value.kind == .string)
  | "number" => .ok (value.kind == .integer || value.kind == .float)
  | "boolean" => .ok (value.kind == .boolean)
  | other => .error (.unknownTest other)

/-!
## Filters and methods
-/

def keyValues (entries : List (String × Value)) : List Value :=
  entries.map (fun entry => .str entry.1)

def firstText (args : List Value) : String :=
  match args with
  | [] => ""
  | arg :: _ => arg.display

def joined : Value → List Value
  | .list items => items
  | .map entries => keyValues entries
  | .null => []
  | other => [other]

def length : Value → Operated Value
  | .list items => .ok (.int (Int64.ofNat items.length))
  | .map entries => .ok (.int (Int64.ofNat entries.length))
  | .str s => .ok (.int (Int64.ofNat s.toList.length))
  | .null => .ok (.int 0)
  | other => .error (.noLength other.kind)

def toList : Value → Operated Value
  | .list items => .ok (.list items)
  | .map entries => .ok (.list (keyValues entries))
  | .str s => .ok (.list (s.toList.map (fun c => .str (String.singleton c))))
  | .null => .ok (.list [])
  | other => .error (.notListable other.kind)

def filter (name : String) (value : Value) (args : List Value) : Operated Value :=
  match name with
  | "join" => .ok (.str (Text.join (firstText args) ((joined value).map Value.display)))
  | "upper" => .ok (.str (Text.upper value.display))
  | "lower" => .ok (.str (Text.lower value.display))
  | "trim" => .ok (.str (Text.trim value.display))
  | "quote" => .ok (.str (Literal.quote value))
  | "length" | "count" => length value
  | "list" => toList value
  | "default" => if value.isNull then .ok (args.headD (.str "")) else .ok value
  | other => .error (.unknownFilter other)

def pairValues (entries : List (String × Value)) : List Value :=
  entries.map (fun entry => .list [.str entry.1, entry.2])

def lookUp (entries : List (String × Value)) (args : List Value) : Value :=
  match Keyed.get? (firstText args) entries with
  | some value => value
  | none => (args[1]?).getD .null

def method (receiver : Value) (name : String) (args : List Value) : Operated Value :=
  match receiver, name with
  | .map entries, "items" => .ok (.list (pairValues entries))
  | .map entries, "keys" => .ok (.list (keyValues entries))
  | .map entries, "values" => .ok (.list (entries.map Prod.snd))
  | .map entries, "get" => .ok (lookUp entries args)
  | .str s, "upper" => .ok (.str (Text.upper s))
  | .str s, "lower" => .ok (.str (Text.lower s))
  | .str s, "startswith" => .ok (.bool (Text.startsWith (firstText args).toList s.toList))
  | receiver, name => .error (.noMethod receiver.kind name)

/-- The items of a loop; a mapping gives its keys, null none. -/
def items : Value → Operated (List Value)
  | .null => .ok []
  | .list items => .ok items
  | .map entries => .ok (keyValues entries)
  | other => .error (.notIterable other.kind)

end Operation
end Template
end TransformChain
