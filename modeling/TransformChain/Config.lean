import TransformChain.Chain.Query
import TransformChain.Storage

/-!
# Settings

The settings of a session, read from a YAML document in which each of them may be left out.
-/

namespace TransformChain

structure Config where
  defaultNamespace : Option Namespace
  compileStyle : CompileStyle
  namePrefix : String
  templateDirs : List String
  previewLimit : Nat
deriving Repr, DecidableEq

namespace Config

def default : Config :=
  ⟨none, .cte, "STEP", [], 10⟩

def ns : Yaml.Decoder Namespace :=
  fun node =>
    match Yaml.string node with
    | some text => (Namespace.parse text).toOption
    | none => none

def style : Yaml.Decoder CompileStyle :=
  fun node => (Yaml.string node).bind CompileStyle.ofName?

def settings : Yaml.Decoder Config :=
  fun node => do
    let given ← Yaml.fields
      ["default_namespace", "compile_style", "alias_prefix", "template_dirs", "preview_limit"] node
    return {
      defaultNamespace := ← given.defaulted "default_namespace" none (Yaml.optional ns)
      compileStyle := ← given.defaulted "compile_style" default.compileStyle style
      namePrefix := ← given.defaulted "alias_prefix" default.namePrefix Yaml.string
      templateDirs := ← given.defaulted "template_dirs" [] (Yaml.list Yaml.string)
      previewLimit := ← given.defaulted "preview_limit" default.previewLimit Yaml.natural }

def parse (text : String) : Except Error Config :=
  if Text.trim text = "" then .ok default
  else
    match Yaml.decode settings text with
    | some config => .ok config
    | none => .error (.config .badSettings)

def relativeTo (directory : String) (config : Config) : Config :=
  { config with templateDirs := config.templateDirs.map (Path.join directory) }

def load [Monad m] (storage : Storage m) (path : String) : m (Except Error Config) := do
  match ← storage.read path with
  | none => return .error .io
  | some text =>
      match parse text with
      | .error _ => return .error (.config (.settingsUnreadable path))
      | .ok config => return .ok (config.relativeTo ((Path.parent? path).getD ""))

end Config
end TransformChain
