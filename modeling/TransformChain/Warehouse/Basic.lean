import TransformChain.Dataset
import TransformChain.Yaml.Decode

/-!
# Warehouses

A warehouse whose tables are known in advance.  It records what it is asked to run and counts the
questions about columns; single requests can be set to fail.
-/

namespace TransformChain

structure Warehouse where
  tables : List (TableName × Schema)
  executed : List String
  views : List (TableName × String)
  lookups : Nat
  columnFailures : List (TableName × Error)
  runFailure : Option Error
deriving Inhabited

namespace Warehouse

def empty : Warehouse :=
  ⟨[], [], [], 0, [], none⟩

def listed? (name : TableName) (entries : List (TableName × α)) : Option α :=
  (entries.find? (fun entry => entry.1 == name)).map Prod.snd

def addTable (warehouse : Warehouse) (name : TableName) (columns : Schema) : Warehouse :=
  { warehouse with
    tables := warehouse.tables.filter (fun entry => entry.1 != name) ++ [(name, columns)] }

def columns (warehouse : Warehouse) (name : TableName) : Except Error Schema × Warehouse :=
  match listed? name warehouse.columnFailures with
  | some e => (.error e, warehouse)
  | none =>
      (.ok ((listed? name warehouse.tables).getD []),
        { warehouse with lookups := warehouse.lookups + 1 })

/-- Runs a statement; every one gives an empty result. -/
def execute (warehouse : Warehouse) (sql : String) : Except Error Unit × Warehouse :=
  match warehouse.runFailure with
  | some e => (.error e, warehouse)
  | none => (.ok (), { warehouse with executed := warehouse.executed ++ [sql] })

def createView (warehouse : Warehouse) (name : TableName) (sql : String) :
    Except Error Unit × Warehouse :=
  match warehouse.runFailure with
  | some e => (.error e, warehouse)
  | none => (.ok (), { warehouse with views := warehouse.views ++ [(name, sql)] })

/-!
## Catalogs

A catalog lists the columns of tables by name.
-/

def column : Yaml.Decoder Column :=
  fun node => do
    let given ← Yaml.fields ["name", "type"] node
    return {
      name := ← given.required "name" Yaml.string
      type := ← given.defaulted "type" none (Yaml.optional Yaml.string) }

def catalog : Yaml.Decoder (Keyed Schema) :=
  fun node => do
    let given ← Yaml.fields ["tables"] node
    given.defaulted "tables" [] (Yaml.entries (Yaml.list column))

def addAll (warehouse : Warehouse) : List (String × Schema) → Except Error Warehouse
  | [] => .ok warehouse
  | (name, columns) :: rest =>
      match TableName.parse name with
      | .ok table => (warehouse.addTable table columns).addAll rest
      | .error e => .error e

def ofCatalog (text : String) : Except Error Warehouse :=
  match Yaml.decode catalog text with
  | some tables => empty.addAll tables
  | none => .error (.config .badCatalog)

end Warehouse
end TransformChain
