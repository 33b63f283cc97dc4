import TransformChain.Error

/-!
# Failures of larger undertakings

What was being done when something went wrong, from the outermost undertaking to the cause.
-/

namespace TransformChain

inductive Attempt where
  | buildDataset (name : String)
  | useSource (name : String)
  | applyStep (position : Nat) (transform : String)
  | parsePipeline
  | readPipeline (path : String)
  | usePipeline (path : String)
  | loadConfig (path : String)
  | loadCatalog (path : String)
  | renderSteps (name : String)
  | createDirectory (path : String)
  | writeFile (path : String)
  | writeStatement (path : String)
deriving Repr, DecidableEq

/-- Why an undertaking failed.  Of a text that cannot be decoded and of a storage that refuses
nothing more is known. -/
inductive Cause where
  | error (e : Error)
  | unknownDataset (argument key : String)
  | nothingToExport (name : String)
  | undecodable
  | refused
deriving Repr, DecidableEq

structure Failure where
  attempts : List Attempt
  cause : Cause
deriving Repr, DecidableEq

/-!
## Wording
-/

def Attempt.message : Attempt → String
  | buildDataset name => "Failed to build dataset '" ++ name ++ "'"
  | useSource name => "Invalid source table '" ++ name ++ "'"
  | applyStep position transform =>
      "Step " ++ Decimal.digitText position ++ " (" ++ transform ++ ") failed"
  | parsePipeline => "Failed to parse pipeline YAML"
  | readPipeline path => "Failed to read pipeline file " ++ path
  | usePipeline path => "Invalid pipeline file " ++ path
  | loadConfig path => "Failed to load config " ++ path
  | loadCatalog path => "Failed to load schema catalog " ++ path
  | renderSteps name => "Failed to render steps of " ++ name
  | createDirectory path => "Failed to create directory " ++ path
  | writeFile path => "Failed to write " ++ path
  | writeStatement path => "Failed to write SQL file " ++ path

def Cause.message? : Cause → Option String
  | error e => some e.message
  | unknownDataset argument key =>
      some ("Argument '" ++ argument ++ "' names unknown dataset '@" ++ key ++ "'")
  | nothingToExport name =>
      some ("Chain " ++ name ++ " has no transforms; nothing to export as dbt models")
  | undecodable => none
  | refused => none

namespace Failure

def messages (failure : Failure) : List String :=
  failure.attempts.map Attempt.message ++ failure.cause.message?.toList

/-!
## Undertakings
-/

def ofCause (cause : Cause) : Failure :=
  ⟨[], cause⟩

def ofError (e : Error) : Failure :=
  ofCause (.error e)

def within (attempt : Attempt) (failure : Failure) : Failure :=
  { failure with attempts := attempt :: failure.attempts }

end Failure

/-- Runs an action as part of an undertaking, which a failure then names. -/
def attempting [Monad m] (attempt : Attempt) (action : ExceptT Failure m α) :
    ExceptT Failure m α :=
  ExceptT.adapt (Failure.within attempt) action

def plainly [Monad m] (action : ExceptT Error m α) : ExceptT Failure m α :=
  ExceptT.adapt Failure.ofError action

end TransformChain
