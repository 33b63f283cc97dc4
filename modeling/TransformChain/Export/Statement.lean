import TransformChain.Chain.Query
import TransformChain.Failure
import TransformChain.Storage

/-!
# Statement files

Writes a compiled query as a file that holds one statement.
-/

namespace TransformChain

def Storage.expect [Monad m] (attempt : Attempt) (request : m Bool) : ExceptT Failure m Unit := do
  if ← request then
    return ()
  else
    throw ⟨[attempt], .refused⟩

def trimmedEnd (sql : String) : String :=
  String.ofList (Text.trimEnd sql.toList)

namespace CompiledQuery

def statementText (query : CompiledQuery) : String :=
  trimmedEnd query.sql ++ ";\n"

def writeStatement [Monad m] (storage : Storage m) (query : CompiledQuery) (path : String) :
    ExceptT Failure m Unit := do
  match (Path.parent? path).filter (fun parent => parent != "") with
  | some parent =>
      Storage.expect (.createDirectory parent) (storage.createDirectories parent)
  | none => pure ()
  Storage.expect (.writeStatement path) (storage.write path query.statementText)

end CompiledQuery
end TransformChain
