import TransformChain.Keyed
import TransformChain.Text.Join

/-!
# Storage

What the program needs of the place where its files are, and such a place held in memory.  Paths
are texts whose parts are separated by slashes.
-/

namespace TransformChain

/-- Access to files.  Reading gives nothing where there is no readable file; creating directories
and writing tell whether they succeeded. -/
structure Storage (m : Type → Type) where
  read : String → m (Option String)
  isThere : String → m Bool
  createDirectories : String → m Bool
  write : String → String → m Bool

namespace Path

def join (directory name : String) : String :=
  if name.toList.head? = some '/' then name
  else if directory = "" then name
  else if directory.toList.getLast? = some '/' then directory ++ name
  else directory ++ "/" ++ name

def isRelative (path : String) : Bool :=
  path.toList.head? != some '/'

/-- The path up to its last part; nothing where there is no part. -/
def parent? (path : String) : Option String :=
  let trimmed := path.toList.reverse.dropWhile (fun c => c == '/')
  if trimmed.isEmpty then
    none
  else
    let upper := (trimmed.dropWhile (fun c => c != '/')).dropWhile (fun c => c == '/')
    if upper.isEmpty && !isRelative path then some "/" else some (String.ofList upper.reverse)

/-- Whether a path can name a file: nothing but a name comes last. -/
def namesFile (path : String) : Bool :=
  let last := Text.afterLast '/' path.toList
  last != [] && last != ['.'] && last != ['.', '.']

end Path

/-!
## Files in memory
-/

abbrev Place := List String

structure Files where
  files : List (Place × String)
  directories : List Place
deriving Inhabited

namespace Files

/-- Where one part of a path leads.  Two dots lead one part up, which may be out of the files. -/
def advance : Option Place → String → Option Place
  | none, _ => none
  | some place, part =>
      if part = "" || part = "." then some place
      else if part = ".." then (if place.isEmpty then none else some place.dropLast)
      else some (place ++ [part])

/-- Where a path leads; an absolute one leads out of the files. -/
def place? (path : String) : Option Place :=
  if Path.isRelative path then
    ((Text.splitChar '/' path.toList).map String.ofList).foldl advance (some [])
  else
    none

def find? (files : Files) (place : Place) : Option String :=
  (files.files.find? (fun entry => entry.1 == place)).map Prod.snd

def isFile (files : Files) (place : Place) : Bool :=
  (files.find? place).isSome

def isDirectory (files : Files) (place : Place) : Bool :=
  place.isEmpty || files.directories.contains place ||
    files.files.any (fun entry => place.isPrefixOf entry.1 && place != entry.1)

def set (files : Files) (place : Place) (content : String) : Files :=
  if files.isFile place then
    { files with
      files := files.files.map (fun entry => if entry.1 == place then (place, content) else entry) }
  else
    { files with files := files.files ++ [(place, content)] }

def setPath (files : Files) (path content : String) : Files :=
  match place? path with
  | some place => files.set place content
  | none => files

def ofEntries (entries : List (String × String)) : Files :=
  entries.foldl (fun files entry => files.setPath entry.1 entry.2) ⟨[], []⟩

/-- The place and the ones above it, from the top. -/
def upward : Place → List Place
  | [] => []
  | part :: rest => [part] :: (upward rest).map (fun place => part :: place)

/-- Makes a directory and the ones above it, unless one of them is a file. -/
def createDirectories (files : Files) (place : Place) : Option Files :=
  if (upward place).any files.isFile then none
  else some { files with directories := files.directories ++ upward place }

def write (files : Files) (place : Place) (content : String) : Option Files :=
  if place.isEmpty || files.isDirectory place || !files.isDirectory place.dropLast then none
  else some (files.set place content)

/-!
## Paths into the files

A path out of the files finds nothing there, and what is written there is not kept.
-/

def attempt (change : Files → Place → Option Files) (path : String) : StateM Files Bool :=
  fun files =>
    match place? path with
    | none => (true, files)
    | some place =>
        match change files place with
        | some next => (true, next)
        | none => (false, files)

def readPath (files : Files) (path : String) : Option String :=
  match place? path with
  | some place => if Path.namesFile path then files.find? place else none
  | none => none

def hasPath (files : Files) (path : String) : Bool :=
  match place? path with
  | some place => (Path.namesFile path && files.isFile place) || files.isDirectory place
  | none => false

def storage : Storage (StateM Files) where
  read := fun path files => (files.readPath path, files)
  isThere := fun path files => (files.hasPath path, files)
  createDirectories := attempt createDirectories
  write := fun path content =>
    if Path.namesFile path then attempt (fun files place => files.write place content) path
    else pure false

end Files
end TransformChain
