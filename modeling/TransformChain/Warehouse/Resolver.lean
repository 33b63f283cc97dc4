import TransformChain.Warehouse.Basic

/-!
# Resolving columns

Answers which columns a dataset has.  The warehouse is asked once for each table; its answer is
kept unless it is that the table has no columns.
-/

namespace TransformChain

structure Resolver where
  warehouse : Warehouse
  cache : List (TableName × Schema)
deriving Inhabited

/-- A computation that may ask the warehouse.  What was learnt before a failure stays known. -/
abbrev Asking (α : Type) := ExceptT Error (StateM Resolver) α

namespace Resolver

def ofWarehouse (warehouse : Warehouse) : Resolver :=
  ⟨warehouse, []⟩

def prime (resolver : Resolver) (name : TableName) (columns : Schema) : Resolver :=
  { resolver with
    cache := resolver.cache.filter (fun entry => entry.1 != name) ++ [(name, columns)] }

def invalidate (resolver : Resolver) (name : TableName) : Resolver :=
  { resolver with cache := resolver.cache.filter (fun entry => entry.1 != name) }

def unavailable (name : TableName) : Error → Error
  | .schemaUnavailable dataset reason => .schemaUnavailable dataset reason
  | other => .schemaUnavailable name.display (.reported other.message)

def ask (resolver : Resolver) (name : TableName) : Except Error Schema × Resolver :=
  match resolver.warehouse.columns name with
  | (.error e, warehouse) => (.error (unavailable name e), { resolver with warehouse := warehouse })
  | (.ok [], warehouse) =>
      (.error (.schemaUnavailable name.display .emptyTable),
        { resolver with warehouse := warehouse })
  | (.ok columns, warehouse) =>
      (.ok columns, { resolver with warehouse := warehouse }.prime name columns)

def tableColumns (name : TableName) : Asking Schema :=
  fun resolver =>
    match Warehouse.listed? name resolver.cache with
    | some columns => (.ok columns, resolver)
    | none => resolver.ask name

def columnsOf (dataset : Dataset) : Asking Schema :=
  match dataset.columns, dataset with
  | some columns, _ => pure columns
  | none, .table name _ => tableColumns name
  | none, .query name _ _ => throw (.schemaUnavailable name .undeclaredQuery)

/-- The result of a question about columns; that they are not available is no failure. -/
def lenient : Except Error Schema → Except Error (Option Schema)
  | .ok columns => .ok (some columns)
  | .error (.schemaUnavailable _ _) => .ok none
  | .error e => .error e

def columnsIfKnown (dataset : Dataset) : Asking (Option Schema) :=
  fun resolver =>
    match (columnsOf dataset).run resolver with
    | (result, next) => (lenient result, next)

def request (run : Warehouse → Except Error α × Warehouse) : Asking α :=
  fun resolver =>
    match run resolver.warehouse with
    | (result, warehouse) => (result, { resolver with warehouse := warehouse })

end Resolver
end TransformChain
