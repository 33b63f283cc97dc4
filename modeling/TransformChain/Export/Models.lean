import TransformChain.Export.Statement
import TransformChain.Yaml.Writing

/-!
# Model projects

A chain or a compiled query as the files of a dbt project: one file for each model, and a list of
the models with their columns.  A model refers to the table or model that it reads with a tag of
the project's own templates.
-/

namespace TransformChain

abbrev ModelHeader := Keyed String

structure Model where
  name : String
  description : String
  columns : Schema
deriving Repr, DecidableEq

/-- The files of a project: the models in the order of the steps, and the list of models. -/
structure ModelProject where
  models : List (String × String)
  listing : String
deriving Repr, DecidableEq

/-!
## Model texts
-/

def tag (text : String) : String :=
  "\x7b\x7b " ++ text ++ " \x7d\x7d"

namespace ModelHeader

/-- A quote in a value is escaped; nothing else is. -/
def escapeChar (c : Char) : List Char :=
  if c == '\'' then ['\\', '\''] else [c]

def entry (field : String × String) : String :=
  field.1 ++ "='" ++ String.ofList (field.2.toList.flatMap escapeChar) ++ "'"

/-- The file of a model with the given body; an empty header is left out. -/
def modelText (header : ModelHeader) (body : String) : String :=
  if header.isEmpty then
    trimmedEnd body ++ "\n"
  else
    tag ("config(" ++ Text.join ", " (header.map entry) ++ ")") ++ "\n\n" ++
      trimmedEnd body ++ "\n"

end ModelHeader

def modelReference : StepInput → String
  | .source (.table name _) => tag ("source('" ++ name.schema ++ "', '" ++ name.table ++ "')")
  | .source (.query name sql columns) => (Dataset.query name sql columns).relation
  | .step name => tag ("ref('" ++ name ++ "')")

/-!
## The list of models
-/

namespace Model

open Yaml

def columnBlock (column : Column) : Block :=
  .record (("name", .text column.name) ::
    match column.type with
    | some type => [("data_type", .text type)]
    | none => [])

def block (model : Model) : Block :=
  .record (
    [("name", .text model.name)] ++
    (if model.description = "" then [] else [("description", .text model.description)]) ++
    (if model.columns.isEmpty then []
      else [("columns", .list (model.columns.map columnBlock))]))

def sourceBlock (name : TableName) : Block :=
  .record [("name", .text name.schema), ("database", .text name.database),
    ("tables", .list [.record [("name", .text name.table)]])]

def listing (sources : List TableName) (models : List Model) : String :=
  Block.document (
    [("version", .number 2)] ++
    (if sources.isEmpty then [] else [("sources", .list (sources.map sourceBlock))]) ++
    [("models", .list (models.map block))])

end Model

/-!
## Projects
-/

namespace ModelProject

def fileName (model : String) : String :=
  model ++ ".sql"

def listingName : String := "schema.yml"

/-- The models of the steps; only the last one lists its columns. -/
def stepModels : List StepFragment → List Model
  | [] => []
  | [last] => [⟨last.name, last.transform ++ " step", last.columns.getD []⟩]
  | step :: rest => ⟨step.name, step.transform ++ " step", []⟩ :: stepModels rest

def sourceTables : Dataset → List TableName
  | .table name _ => [name]
  | .query _ _ _ => []

def stepFile (header : ModelHeader) (step : StepFragment) : String × String :=
  (fileName step.name, header.modelText step.sql)

def ofChain (header : ModelHeader) (chain : Chain) : Except Failure ModelProject :=
  match chain.renderSteps modelReference with
  | .error e => .error ⟨[.renderSteps chain.name], .error e⟩
  | .ok [] => .error (.ofCause (.nothingToExport chain.name))
  | .ok steps =>
      .ok ⟨steps.map (stepFile header),
        Model.listing (sourceTables chain.source) (stepModels steps)⟩

def ofQuery (header : ModelHeader) (query : CompiledQuery) (name : String) : ModelProject :=
  ⟨[(fileName name, header.modelText query.sql)], Model.listing [] [⟨name, "", query.columns⟩]⟩

/-!
## Writing
-/

def writeFiles [Monad m] (storage : Storage m) (directory : String) :
    List (String × String) → ExceptT Failure m Unit
  | [] => pure ()
  | (name, content) :: rest => do
      let path := Path.join directory name
      Storage.expect (.writeFile path) (storage.write path content)
      writeFiles storage directory rest

/-- Writes the files into a directory, which is made if need be; the list of models comes last. -/
def write [Monad m] (storage : Storage m) (directory : String) (project : ModelProject) :
    ExceptT Failure m Unit := do
  Storage.expect (.createDirectory directory) (storage.createDirectories directory)
  writeFiles storage directory (project.models ++ [(listingName, project.listing)])

def exportChain [Monad m] (storage : Storage m) (header : ModelHeader) (chain : Chain)
    (directory : String) : ExceptT Failure m Unit := do
  let project ← ofChain header chain
  project.write storage directory

end ModelProject
end TransformChain
