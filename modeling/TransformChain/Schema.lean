/-!
# Schemas

The ordered columns of a dataset.  A column's type is whatever the warehouse or a template stated,
if anybody did.
-/

namespace TransformChain

structure Column where
  name : String
  type : Option String
deriving Repr, DecidableEq

abbrev Schema := List Column

namespace Schema

def ofNames (names : List String) : Schema :=
  names.map (fun name => ⟨name, none⟩)

def names (schema : Schema) : List String :=
  schema.map Column.name

def find? (schema : Schema) (name : String) : Option Column :=
  List.find? (fun column => column.name == name) schema

def has (schema : Schema) (name : String) : Bool :=
  (schema.find? name).isSome

end Schema
end TransformChain
