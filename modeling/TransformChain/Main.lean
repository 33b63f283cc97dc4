import TransformChain.Command.Run

/-!
# The command line

Runs a command on the files of the machine.
-/

namespace TransformChain

def succeeds (action : IO Unit) : IO Bool := do
  try
    action
    return true
  catch _ =>
    return false

def readFile (path : String) : IO (Option String) := do
  try
    return some (← IO.FS.readFile path)
  catch _ =>
    return none

def machineFiles : Storage IO where
  read := readFile
  isThere := fun path => succeeds (do let _ ← IO.FS.realPath path)
  createDirectories := fun path =>
    if path = "" then return true else succeeds (IO.FS.createDirAll path)
  write := fun path content => succeeds (IO.FS.writeFile path content)

end TransformChain

open TransformChain

def main (words : List String) : IO UInt32 := do
  let surroundings := {
    configPath := ← IO.getEnv "SQLCHAIN_CONFIG"
    home := ← IO.getEnv "HOME" }
  let outcome ← Command.run machineFiles surroundings words
  IO.print outcome.output
  IO.eprint outcome.report
  return outcome.exitCode.toUInt32
