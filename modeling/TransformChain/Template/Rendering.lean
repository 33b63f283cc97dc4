import TransformChain.Template.Evaluator

/-!
# Rendering

The SQL fragment that a template writes in a context, and the output columns it declares.
-/

namespace TransformChain
namespace Template

structure Rendered where
  sql : String
  output : Option Schema
deriving Repr, DecidableEq

namespace Scene

def globals (scene : Scene) : Frame :=
  Keyed.put "source_table" (.str scene.context.source) scene.context.arguments

def start (scene : Scene) : State :=
  ⟨[scene.globals], [], 0⟩

/-- The text that the template's body writes when calls nest at most as deep as the budget. -/
def run (scene : Scene) (budget : Nat) : Outcome String × State :=
  execAll scene (Calls.within scene budget) scene.template.body.nodes scene.start

end Scene

/-- The nesting of calls at which evaluation is given up.  Macro bodies and rendered texts nest
far less; only the defaults of macro parameters can come this deep. -/
def callBudget : Nat := 4096

/-- Declared columns count as an output schema only if there are any. -/
def declaredOutput (declared : Schema) : Option Schema :=
  if declared.isEmpty then none else some declared

def render (template : Template) (context : Context) : Except Error Rendered :=
  match Scene.run ⟨template, context⟩ callBudget with
  | (.done text, state) =>
      let sql := Text.trim text
      if sql = "" then
        .error (.emptyRender template.name)
      else
        .ok ⟨sql, declaredOutput state.declared⟩
  | (.failed e, _) => .error e
  | (.spent, _) => .error (.templateEvaluation template.name .callsWithoutEnd)

end Template
end TransformChain
