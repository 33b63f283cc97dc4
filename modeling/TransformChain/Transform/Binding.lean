import TransformChain.Transform.Basic

/-!
# Binding

Matches the arguments of a call with the parameters of a transform.  The result has one entry per
parameter, in the order of declaration, with defaults filled in and dataset names resolved.
-/

namespace TransformChain

structure Bound where
  entries : List (String × Argument)
deriving Inhabited

namespace Bound

def datasets (bound : Bound) : List (String × Dataset) :=
  bound.entries.filterMap fun entry =>
    match entry with
    | (name, .dataset d) => some (name, d)
    | _ => none

def values (bound : Bound) : List (String × Value) :=
  bound.entries.map (fun entry => (entry.1, entry.2.toValue))

end Bound

namespace Transform

def unexpected? (transform : Transform) (args : Keyed Argument) : Option String :=
  args.keys.find? (fun name => name == sourceVariable || (transform.parameter? name).isNone)

/-- A dataset named by a text is a table; a partial name is completed from the namespace. -/
def asDataset (ns : Option Namespace) : Argument → Except Error Argument
  | .str name =>
      match TableName.complete name ns with
      | .ok table => .ok (.dataset (.table table none))
      | .error e => .error e
  | other => .ok other

def bindGiven (transform : Transform) (ns : Option Namespace) (p : Parameter)
    (value : Argument) : Except Error Argument :=
  if p.shape.accepts value then
    if p.shape = .dataset then asDataset ns value else .ok value
  else
    .error (.argumentShape transform.name p.name p.shape value.shape)

def bindParameter (transform : Transform) (ns : Option Namespace) (args : Keyed Argument)
    (p : Parameter) : Except Error Argument :=
  match (Keyed.get? p.name args).filter (fun value => !value.isNull) with
  | some value => bindGiven transform ns p value
  | none =>
      if p.required then .error (.missingArgument transform.name p.name)
      else .ok (p.default.getD .null)

def bindParameters (transform : Transform) (ns : Option Namespace) (args : Keyed Argument) :
    List Parameter → Except Error (List (String × Argument))
  | [] => .ok []
  | p :: rest =>
      match bindParameter transform ns args p with
      | .error e => .error e
      | .ok value =>
          match bindParameters transform ns args rest with
          | .error e => .error e
          | .ok others => .ok ((p.name, value) :: others)

def bind (transform : Transform) (args : Keyed Argument) (ns : Option Namespace) :
    Except Error Bound :=
  match transform.unexpected? args with
  | some name => .error (.unexpectedArgument transform.name name)
  | none =>
      match bindParameters transform ns args transform.parameters with
      | .ok entries => .ok ⟨entries⟩
      | .error e => .error e

end Transform
end TransformChain
