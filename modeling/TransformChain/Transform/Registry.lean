import TransformChain.Storage
import TransformChain.Transform.Library
import TransformChain.Transform.Manifest

/-!
# Registries

The transforms that are known by name, in the order in which they were registered.
-/

namespace TransformChain

structure Registry where
  transforms : List Transform

namespace Registry

def empty : Registry :=
  ⟨[]⟩

def find? (registry : Registry) (name : String) : Option Transform :=
  registry.transforms.find? (fun t => t.name == name)

def contains (registry : Registry) (name : String) : Bool :=
  (registry.find? name).isSome

def lookup (registry : Registry) (name : String) : Except Error Transform :=
  match registry.find? name with
  | some transform => .ok transform
  | none => .error (.unknownTransform name)

def names (registry : Registry) : List String :=
  registry.transforms.map Transform.name

def register (registry : Registry) (transform : Transform) : Except Error Registry :=
  if registry.contains transform.name then .error (.duplicateTemplate transform.name)
  else .ok ⟨registry.transforms ++ [transform]⟩

def add (registry : Registry) (listing : Listing) (body : String) : Except Error Registry :=
  match Transform.create listing body with
  | .ok transform => registry.register transform
  | .error e => .error e

/-!
## Loading
-/

/-- Adds the transforms of the listings until one fails, and counts them.  What was added before a
failure stays. -/
def addAll [Monad m] (body : String → m (Except Error String)) (count : Nat)
    (registry : Registry) : List Listing → m (Except Error Nat × Registry)
  | [] => return (.ok count, registry)
  | listing :: rest => do
      match ← body listing.name with
      | .error e => return (.error e, registry)
      | .ok text =>
          match registry.add listing text with
          | .error e => return (.error e, registry)
          | .ok next => addAll body (count + 1) next rest

def loadManifest [Monad m] (registry : Registry) (manifest : String)
    (body : String → m (Except Error String)) : m (Except Error Nat × Registry) := do
  match Manifest.parse manifest with
  | .error e => return (.error e, registry)
  | .ok listings => addAll body 0 registry listings

def readBody [Monad m] (storage : Storage m) (directory name : String) :
    m (Except Error String) := do
  let path := Path.join directory (name ++ ".sql")
  match ← storage.read path with
  | some text => return .ok text
  | none => return .error (.config (.bodyUnreadable path))

/-- Adds the transforms of a directory, which lists them in `templates.yaml`.  A directory without
a list has none. -/
def loadDirectory [Monad m] (storage : Storage m) (registry : Registry) (directory : String) :
    m (Except Error Nat × Registry) := do
  let path := Path.join directory "templates.yaml"
  if ← storage.isThere path then
    match ← storage.read path with
    | some manifest => registry.loadManifest manifest (readBody storage directory)
    | none => return (.error .io, registry)
  else
    return (.ok 0, registry)

def loadDirectories [Monad m] (storage : Storage m) (registry : Registry) :
    List String → m (Except Error Registry)
  | [] => return .ok registry
  | directory :: rest => do
      match ← registry.loadDirectory storage directory with
      | (.error e, _) => return .error e
      | (.ok _, next) => next.loadDirectories storage rest

def addEach (registry : Registry) : List (Listing × String) → Except Error Registry
  | [] => .ok registry
  | (listing, body) :: rest =>
      match registry.add listing body with
      | .ok next => next.addEach rest
      | .error e => .error e

def builtin : Except Error Registry :=
  empty.addEach Library.entries

end Registry
end TransformChain
