import TransformChain.Chain.Query
import TransformChain.Command.Usage

/-!
# Options

Reads the words of a command line.  Options may stand anywhere behind the command; where one is
repeated, the last counts.
-/

namespace TransformChain
namespace Command

structure Options where
  config : Option String
  schemas : Option String
  style : Option CompileStyle
  views : Bool
  out : Option String
  models : Option String
  operands : List String
deriving Repr, DecidableEq

inductive Flag where
  | config
  | schemas
  | style
  | views
  | out
  | models
  | help
deriving Repr, DecidableEq

namespace Flag

def ofWord? (word : String) : Option Flag :=
  if word = "--config" || word = "-c" then some config
  else if word = "--schemas" || word = "-s" then some schemas
  else if word = "--style" then some style
  else if word = "--views" then some views
  else if word = "--out" || word = "-o" then some out
  else if word = "--dbt" then some models
  else if word = "--help" || word = "-h" then some help
  else none

end Flag

namespace Options

def none : Options :=
  ⟨Option.none, Option.none, Option.none, false, Option.none, Option.none, []⟩

def set (options : Options) (flag : Flag) (value : String) : Except Error Options :=
  match flag with
  | .config => .ok { options with config := some value }
  | .schemas => .ok { options with schemas := some value }
  | .style => (CompileStyle.parse value).map (fun style => { options with style := some style })
  | .out => .ok { options with out := some value }
  | .models => .ok { options with models := some value }
  | .views => .ok options
  | .help => .ok options

def isOption (word : String) : Bool :=
  word.toList.head? == some '-'

/-- Reads the words behind the command; nothing where one of them asks for help. -/
def read (options : Options) : List String → Except Trouble (Option Options)
  | [] => .ok (some options)
  | word :: rest =>
      match Flag.ofWord? word with
      | some .help => .ok Option.none
      | some .views => read { options with views := true } rest
      | some flag =>
          match rest with
          | [] => .error (.misuse (.valueMissing word))
          | value :: others =>
              match options.set flag value with
              | .error e => .error (.ofError e)
              | .ok next => read next others
      | Option.none =>
          if isOption word then .error (.misuse (.unknownOption word))
          else read { options with operands := options.operands ++ [word] } rest

end Options
end Command
end TransformChain
