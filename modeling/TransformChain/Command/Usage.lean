import TransformChain.Failure

/-!
# Usage

What the command line accepts, and what is wrong with one that it does not accept.
-/

namespace TransformChain
namespace Command

def usage : String :=
  "Usage:\n" ++
  "  sqlchain compile <pipeline.yaml> [--schemas <catalog.yaml>] [--config <config.yaml>]\n" ++
  "                   [--style cte|nested] [--views] [--out <file.sql>] [--dbt <dir>]\n" ++
  "  sqlchain transforms [--config <config.yaml>]\n" ++
  "  sqlchain define <transform> [--config <config.yaml>]"

inductive Misuse where
  | unknownOption (text : String)
  | unknownCommand (text : String)
  | valueMissing (option : String)
  | pipelineMissing
  | transformMissing
deriving Repr, DecidableEq

def Misuse.message : Misuse → String
  | unknownOption text => "Unknown option " ++ text ++ "\n" ++ usage
  | unknownCommand text => "Unknown command " ++ text ++ "\n" ++ usage
  | valueMissing option => option ++ " needs a value"
  | pipelineMissing => "compile needs a pipeline file\n" ++ usage
  | transformMissing => "define needs a transform name\n" ++ usage

inductive Trouble where
  | misuse (misuse : Misuse)
  | failure (failure : Failure)
deriving Repr, DecidableEq

namespace Trouble

def ofError (e : Error) : Trouble :=
  .failure (.ofError e)

def messages : Trouble → List String
  | misuse m => [m.message]
  | failure f => f.messages

def causeLines (causes : List String) : String :=
  String.join (causes.map (fun text => "    " ++ text ++ "\n"))

/-- The report of a trouble: the outermost message, and below it what led to it. -/
def report (trouble : Trouble) : String :=
  match trouble.messages with
  | [] => "Error\n"
  | [message] => "Error: " ++ message ++ "\n"
  | message :: causes => "Error: " ++ message ++ "\n\nCaused by:\n" ++ causeLines causes

end Trouble
end Command
end TransformChain
