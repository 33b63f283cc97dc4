import TransformChain.Argument
import TransformChain.Yaml.Atom
import TransformChain.Yaml.Node

/-!
# Decoding

Reads typed data out of the nodes of a YAML document.  A text takes any scalar as it is written; a
list or a mapping takes an empty scalar as an empty one; a record ignores fields it does not know
and refuses a field given twice.
-/

namespace TransformChain
namespace Yaml

abbrev Decoder (α : Type) := Node → Option α

/-!
## Scalars
-/

def coreTag (name : String) : Option String :=
  some ("tag:yaml.org,2002:" ++ name)

def string : Decoder String
  | .scalar _ _ text => some text
  | _ => none

/-- A scalar that is plain, or that carries the tag of its kind. -/
def plainText (kind : String) : Node → Option String
  | .scalar tag plain text =>
      if tag = coreTag kind || (tag = none && plain) then some text else none
  | _ => none

def flag : Decoder Bool :=
  fun node => (plainText "bool" node).bind boolOfText?

def natural : Decoder Nat :=
  fun node =>
    match (plainText "int" node).bind integer? with
    | some (.ofNat n) => if n < Nat.pow 2 64 then some n else none
    | _ => none

/-- Whether a node is null or empty, where something may be left out. -/
def isAbsent : Node → Bool
  | .scalar tag plain text =>
      plain && (tag = none || tag = coreTag "null") && (text.isEmpty || isNullText text)
  | _ => false

def optional (decode : Decoder α) : Decoder (Option α) :=
  fun node => if isAbsent node then some none else (decode node).map some

/-!
## Collections
-/

def isEmptyScalar : Node → Bool
  | .scalar _ plain text => plain && text.isEmpty
  | _ => false

def items : Decoder (List Node)
  | .sequence _ nodes => some nodes
  | node => if isEmptyScalar node then some [] else none

def list (decode : Decoder α) : Decoder (List α) :=
  fun node => (items node).bind (fun nodes => nodes.mapM decode)

def pairs : Decoder (List (Node × Node))
  | .mapping _ entries => some entries
  | node => if isEmptyScalar node then some [] else none

def entry (decode : Decoder α) : Node × Node → Option (String × α)
  | (key, node) =>
      match string key, decode node with
      | some name, some value => some (name, value)
      | _, _ => none

/-- Entries in the order of their first keys, each with its last value. -/
def entries (decode : Decoder α) : Decoder (Keyed α) :=
  fun node =>
    match pairs node with
    | none => none
    | some nodes =>
        (nodes.mapM (entry decode)).map Keyed.ofPairs

/-!
## Records
-/

abbrev Fields := List (String × Node)

/-- The fields that are known, none of them given twice. -/
def fields (known : List String) : Decoder Fields :=
  fun node =>
    match pairs node with
    | none => none
    | some nodes =>
        match nodes.mapM (entry some) with
        | none => none
        | some named =>
            let used := named.filter (fun field => known.contains field.1)
            if (used.map Prod.fst).Nodup then some used else none

namespace Fields

def required (fields : Fields) (name : String) (decode : Decoder α) : Option α :=
  (Keyed.get? name fields).bind decode

def defaulted (fields : Fields) (name : String) (default : α) (decode : Decoder α) : Option α :=
  match Keyed.get? name fields with
  | some node => decode node
  | none => some default

end Fields

/-!
## Arguments
-/

/-- Integers that fit 64 bits only without a sign become floats; greater ones cannot be held. -/
def argumentOfAtom : Atom → Option Argument
  | .null => some .null
  | .bool b => some (.bool b)
  | .float x => some (.float x)
  | .text s => some (.str s)
  | .int n =>
      match Decimal.toInt64? n with
      | some i => some (.int i)
      | none =>
          if 0 ≤ n && n < Int.ofNat (Nat.pow 2 64) then some (.float (Float.ofInt n)) else none

/-- A tag that is defined by nobody cannot be understood. -/
def isLocalTag : Option String → Bool
  | some tag => tag.toList.head? == some '!'
  | none => false

/-- The argument of a scalar.  A tag of a kind requires a text of that kind. -/
def scalarArgument (tag : Option String) (plain : Bool) (text : String) : Option Argument :=
  if tag = none then
    if plain then argumentOfAtom (Atom.ofPlain text) else some (.str text)
  else if tag = coreTag "null" then
    if isNullText text then some .null else none
  else if tag = coreTag "bool" then
    (boolOfText? text).map Argument.bool
  else if tag = coreTag "int" then
    (integer? text).bind (fun n => argumentOfAtom (.int n))
  else if tag = coreTag "float" then
    (float? text).map Argument.float
  else if isLocalTag tag then
    none
  else
    some (.str text)

def argumentKey : Decoder String
  | .scalar tag plain text =>
      match scalarArgument tag plain text with
      | some (.str key) => some key
      | _ => none
  | _ => none

mutual

def argument : Node → Option Argument
  | .scalar tag plain text => scalarArgument tag plain text
  | .sequence tag nodes =>
      if isLocalTag tag then none else (argumentItems nodes).map Argument.list
  | .mapping tag nodes =>
      if isLocalTag tag then none
      else (argumentEntries nodes).map (fun entries => .mapping (Keyed.ofPairs entries))

def argumentItems : List Node → Option (List Argument)
  | [] => some []
  | node :: rest =>
      match argument node, argumentItems rest with
      | some item, some others => some (item :: others)
      | _, _ => none

def argumentEntries : List (Node × Node) → Option (List (String × Argument))
  | [] => some []
  | (key, node) :: rest =>
      match argumentKey key, argument node, argumentEntries rest with
      | some name, some item, some others => some ((name, item) :: others)
      | _, _, _ => none

end

def arguments : Decoder (Keyed Argument) :=
  entries argument

/-!
## Documents
-/

/-- Decodes the single document of a text; an empty one counts as an empty scalar. -/
def decode (decoder : Decoder α) (text : String) : Option α :=
  match read text with
  | none => none
  | some none => decoder Node.empty
  | some (some node) => decoder node

end Yaml
end TransformChain
