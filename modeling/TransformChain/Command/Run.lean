import TransformChain.Command.Options
import TransformChain.Export.Models
import TransformChain.Pipeline.Building

/-!
# Commands

Runs the commands of the command line on a storage: compiling a pipeline, listing the transforms
and describing one of them.
-/

namespace TransformChain
namespace Command

/-- What the surroundings say about the settings: a file to take them from, and the directory of
the user. -/
structure Surroundings where
  configPath : Option String
  home : Option String

inductive Outcome where
  | done (output : String)
  | failed (trouble : Trouble)
  | noCommand
deriving Repr, DecidableEq

namespace Outcome

def exitCode : Outcome → Nat
  | done _ => 0
  | failed _ => 1
  | noCommand => 2

def output : Outcome → String
  | done text => text
  | failed _ => ""
  | noCommand => ""

def report : Outcome → String
  | done _ => ""
  | failed trouble => trouble.report
  | noCommand => usage ++ "\n"

end Outcome

abbrev Running (m : Type → Type) (α : Type) := ExceptT Trouble m α

def misused [Monad m] (misuse : Misuse) : Running m α :=
  throw (.misuse misuse)

def failing [Monad m] (action : ExceptT Failure m α) : Running m α :=
  ExceptT.adapt Trouble.failure action

def line (text : String) : String :=
  text ++ "\n"

/-!
## Settings
-/

def userConfig (home : String) : String :=
  Path.join (Path.join (Path.join home ".config") "sqlchain") "config.yaml"

/-- The file of the settings: the one that is asked for, the one that the surroundings name, or
the user's own if there is one. -/
def configPath [Monad m] (storage : Storage m) (surroundings : Surroundings)
    (asked : Option String) : m (Option String) := do
  match asked, surroundings.configPath, surroundings.home with
  | some path, _, _ => return some path
  | none, some path, _ => return some path
  | none, none, some home =>
      let path := userConfig home
      return if ← storage.isThere path then some path else none
  | none, none, none => return none

def loadConfig [Monad m] (storage : Storage m) (surroundings : Surroundings)
    (asked : Option String) : ExceptT Failure m Config := do
  match ← (configPath storage surroundings asked : m (Option String)) with
  | some path => attempting (.loadConfig path) (plainly (ExceptT.mk (Config.load storage path)))
  | none => return Config.default

def loadSession [Monad m] (storage : Storage m) (config : Config) : ExceptT Failure m Session :=
  plainly (ExceptT.mk (Session.load storage config))

/-!
## Compiling
-/

def loadWarehouse [Monad m] (storage : Storage m) (path? : Option String) :
    ExceptT Failure m Warehouse := do
  match path? with
  | none => return Warehouse.empty
  | some path =>
      match ← storage.read path with
      | none => throw ⟨[.loadCatalog path], .error .io⟩
      | some text => attempting (.loadCatalog path) (plainly (Warehouse.ofCatalog text))

def loadPipeline [Monad m] (storage : Storage m) (path : String) :
    ExceptT Failure m Pipeline := do
  match ← storage.read path with
  | none => throw ⟨[.readPipeline path], .refused⟩
  | some text => attempting (.usePipeline path) (ExceptT.mk (pure (Pipeline.parse text)))

def onResolver [Monad m] (action : Building α) (resolver : Resolver) :
    ExceptT Failure m (α × Resolver) :=
  match action.run.run resolver with
  | (.ok result, next) => pure (result, next)
  | (.error failure, _) => throw failure

def modelHeader : ModelHeader :=
  [("materialized", "view")]

def exportModels [Monad m] (storage : Storage m) (chain : Chain) (directory : String) :
    ExceptT Failure m Unit :=
  ModelProject.exportChain storage modelHeader chain directory

def emit [Monad m] (storage : Storage m) (out : Option String) (query : CompiledQuery) :
    ExceptT Failure m String := do
  match out with
  | some path =>
      query.writeStatement storage path
      return ""
  | none => return line query.sql

def compilePipeline [Monad m] (storage : Storage m) (config : Config) (options : Options)
    (path : String) : ExceptT Failure m String := do
  let warehouse ← loadWarehouse storage options.schemas
  let session ← loadSession storage
    { config with compileStyle := options.style.getD config.compileStyle }
  let pipeline ← loadPipeline storage path
  let (chain, resolver) ← onResolver (pipeline.build session) (Resolver.ofWarehouse warehouse)
  match options.models with
  | some directory => exportModels storage chain directory
  | none => pure ()
  if options.views then
    let (text, _) ← onResolver (plainly (session.sql chain .views)) resolver
    return line text
  else
    let (query, _) ← onResolver (plainly (session.compile chain)) resolver
    emit storage options.out query

def compile [Monad m] (storage : Storage m) (config : Config) (options : Options) :
    Running m String := do
  match options.operands with
  | [] => misused .pipelineMissing
  | path :: _ => failing (compilePipeline storage config options path)

/-!
## Commands
-/

def transforms [Monad m] (storage : Storage m) (config : Config) : Running m String := do
  let session ← failing (loadSession storage config)
  return String.join (session.signatures.map line)

def define [Monad m] (storage : Storage m) (config : Config) (options : Options) :
    Running m String := do
  match options.operands with
  | [] => misused .transformMissing
  | name :: _ =>
      let session ← failing (loadSession storage config)
      let text ← failing (plainly (session.define name))
      return line text

def dispatch [Monad m] (storage : Storage m) (config : Config) (options : Options)
    (command : String) : Running m String :=
  if command = "compile" then compile storage config options
  else if command = "transforms" then transforms storage config
  else if command = "define" then define storage config options
  else if command = "help" || command = "--help" || command = "-h" then return line usage
  else misused (.unknownCommand command)

def execute [Monad m] (storage : Storage m) (surroundings : Surroundings) (command : String)
    (words : List String) : Running m String := do
  match ← Options.read Options.none words with
  | none => return line usage
  | some options =>
      let config ← failing (loadConfig storage surroundings options.config)
      dispatch storage config options command

def run [Monad m] (storage : Storage m) (surroundings : Surroundings) (words : List String) :
    m Outcome := do
  match words with
  | [] => return .noCommand
  | command :: rest =>
      match ← (execute storage surroundings command rest).run with
      | .ok text => return .done text
      | .error trouble => return .failed trouble

end Command
end TransformChain
