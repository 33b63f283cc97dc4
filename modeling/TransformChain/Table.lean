import TransformChain.Error
import TransformChain.Text.Blank

/-!
# Table names

Names of warehouse tables have three parts, `DATABASE.SCHEMA.TABLE`; a namespace is the first
two.  A part is not empty and holds neither white space nor dots.
-/

namespace TransformChain

structure Namespace where
  database : String
  schema : String
deriving Repr, DecidableEq

structure TableName where
  database : String
  schema : String
  table : String
deriving Repr, DecidableEq

def nameParts? (cs : List Char) : Option (List String) :=
  let parts := Text.splitChar '.' cs
  if parts.all (fun part => !part.isEmpty && part.all (fun c => !Text.isBlank c)) then
    some (parts.map String.ofList)
  else
    none

namespace Namespace

def parse (text : String) : Except Error Namespace :=
  match nameParts? (Text.trimChars text.toList) with
  | some [database, schema] => .ok ⟨database, schema⟩
  | _ => .error (.invalidTableName text .notNamespace)

def display (ns : Namespace) : String :=
  ns.database ++ "." ++ ns.schema

def table (ns : Namespace) (name : String) : TableName :=
  ⟨ns.database, ns.schema, name⟩

end Namespace

namespace TableName

def parse (text : String) : Except Error TableName :=
  match nameParts? (Text.trimChars text.toList) with
  | some [database, schema, table] => .ok ⟨database, schema, table⟩
  | _ => .error (.invalidTableName text .notQualified)

/-- A name of one, two or three parts; the missing ones are taken from the namespace. -/
def complete (text : String) (ns? : Option Namespace) : Except Error TableName :=
  let trimmed := Text.trim text
  let dots := trimmed.toList.count '.'
  if dots = 2 then
    parse trimmed
  else
    match ns? with
    | none => .error (.invalidTableName text .namespaceMissing)
    | some ns =>
        let candidate :=
          match dots with
          | 0 => ns.database ++ "." ++ ns.schema ++ "." ++ trimmed
          | 1 => ns.database ++ "." ++ trimmed
          | _ => trimmed
        match parse candidate with
        | .ok name => .ok name
        | .error _ => .error (.invalidTableName text .malformed)

def namespaceOf (name : TableName) : Namespace :=
  ⟨name.database, name.schema⟩

def display (name : TableName) : String :=
  name.database ++ "." ++ name.schema ++ "." ++ name.table

end TableName
end TransformChain
