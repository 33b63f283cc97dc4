import TransformChain.Chain.Extension
import TransformChain.Config
import TransformChain.Text.Word

/-!
# Sessions

Brings the settings, the registered transforms and a warehouse together: builds chains, compiles
them, and runs or saves what they compile to.
-/

namespace TransformChain

structure Session where
  config : Config
  registry : Registry

inductive RenderMethod where
  | select
  | table (target : TableName)
  | view (target : TableName)
  | views

namespace Session

def load [Monad m] (storage : Storage m) (config : Config) : m (Except Error Session) := do
  match Registry.builtin with
  | .error e => return .error e
  | .ok registry =>
      match ← registry.loadDirectories storage config.templateDirs with
      | .error e => return .error e
      | .ok extended => return .ok ⟨config, extended⟩

def workshop (session : Session) : Workshop :=
  ⟨session.registry, session.config.defaultNamespace, session.config.namePrefix⟩

/-!
## Chains
-/

def dataset (session : Session) (name : String) : Except Error Chain :=
  match TableName.complete name session.config.defaultNamespace with
  | .ok table => .ok (.root (.table table none))
  | .error e => .error e

def transform (session : Session) (chain : Chain) (name : String) (args : Keyed Argument)
    (options : StepOptions) : Asking Chain :=
  chain.extend session.workshop name args options

def signatures (session : Session) : List String :=
  session.registry.transforms.map Transform.signature

def define (session : Session) (name : String) : Except Error String :=
  match session.registry.lookup name with
  | .ok found => .ok found.definition
  | .error e => .error e

/-!
## Statements
-/

def compile (session : Session) (chain : Chain) : Asking CompiledQuery :=
  chain.compile session.config.compileStyle

def asDataset (session : Session) (chain : Chain) : Asking Dataset :=
  chain.asDataset session.config.compileStyle

def outputNamespace (session : Session) (chain : Chain) : Except Error Namespace :=
  match session.config.defaultNamespace with
  | some ns => .ok ns
  | none =>
      match chain.source with
      | .table name _ => .ok name.namespaceOf
      | .query name _ _ => .error (.config (.noOutputNamespace name))

def outputTable (session : Session) (chain : Chain) : Except Error TableName :=
  match session.outputNamespace chain with
  | .ok ns => .ok (ns.table chain.name)
  | .error e => .error e

def sql (session : Session) (chain : Chain) : RenderMethod → Asking String
  | .select => do
      let query ← session.compile chain
      return query.sql
  | .table target => do
      let query ← session.compile chain
      return query.createStatement .table target
  | .view target => do
      let query ← session.compile chain
      return query.createStatement .view target
  | .views => do
      let ns ← session.outputNamespace chain
      chain.viewChain ns

/-!
## Requests to the warehouse
-/

def preview (session : Session) (chain : Chain) : Asking Unit := do
  let query ← session.compile chain
  let limit := Decimal.digitText session.config.previewLimit
  Resolver.request (fun warehouse => warehouse.execute (query.sql ++ "\nLIMIT " ++ limit))

def save (session : Session) (chain : Chain) (target : Option TableName) (kind : TableKind) :
    Asking TableName := do
  let query ← session.compile chain
  let name ←
    match target with
    | some name => pure name
    | none => session.outputTable chain
  match kind with
  | .view => Resolver.request (fun warehouse => warehouse.createView name query.sql)
  | .table =>
      Resolver.request (fun warehouse => warehouse.execute (query.createStatement .table name))
  return name

def riskyWords : List (List Char) :=
  ["DELETE", "TRUNCATE", "DROP", "ALTER", "UPDATE", "INSERT", "MERGE"].map String.toList

/-- The first risky word of a statement, with its ASCII letters in upper case. -/
def riskyKeyword? (sql : String) : Option String :=
  (Text.findWord riskyWords false sql.toList).map
    (fun found => Text.upperAscii (String.ofList found))

/-- Runs a statement; one with a risky word only if the risk is acknowledged. -/
def query (sql : String) (acknowledged : Bool) : Asking Unit :=
  match if acknowledged then none else riskyKeyword? sql with
  | some keyword => throw (.riskySql keyword)
  | none => Resolver.request (fun warehouse => warehouse.execute sql)

end Session
end TransformChain
