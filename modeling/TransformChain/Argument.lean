import TransformChain.Dataset

/-!
# Arguments

What callers hand to a transform: the values of the template language and datasets.
-/

namespace TransformChain

inductive Argument where
  | null
  | bool (b : Bool)
  | int (i : Int64)
  | float (x : Float)
  | str (s : String)
  | list (items : List Argument)
  | mapping (entries : List (String × Argument))
  | dataset (dataset : Dataset)
deriving Inhabited

namespace Argument

def shape : Argument → Shape
  | list _ => .list
  | mapping _ => .mapping
  | dataset _ => .dataset
  | _ => .scalar

def isNull : Argument → Bool
  | null => true
  | _ => false

mutual

def toValue : Argument → Value
  | null => .null
  | bool b => .bool b
  | int i => .int i
  | float x => .float x
  | str s => .str s
  | list items => .list (toValues items)
  | mapping entries => .map (toEntries entries)
  | dataset d => .str d.relation

def toValues : List Argument → List Value
  | [] => []
  | item :: rest => toValue item :: toValues rest

def toEntries : List (String × Argument) → List (String × Value)
  | [] => []
  | (key, item) :: rest => (key, toValue item) :: toEntries rest

end

end Argument

/-- Whether a parameter of this shape takes the argument.  A dataset may be named by a string. -/
def Shape.accepts : Shape → Argument → Bool
  | .any, _ => true
  | .dataset, .str _ => true
  | shape, argument => shape == argument.shape

end TransformChain
