import TransformChain.Transform.Basic
import TransformChain.Yaml.Decode

/-!
# Manifests

Listings of transforms read from a YAML document.
-/

namespace TransformChain

def Shape.ofName? (name : String) : Option Shape :=
  [Shape.scalar, .list, .mapping, .dataset, .any].find? (fun shape => shape.name == name)

namespace Manifest

open Yaml

def shape : Decoder Shape :=
  fun node => (string node).bind Shape.ofName?

def parameter : Decoder Parameter :=
  fun node => do
    let given ← fields ["name", "shape", "required", "default", "description"] node
    return {
      name := ← given.required "name" string
      shape := ← given.defaulted "shape" .any shape
      required := ← given.defaulted "required" true flag
      default := ← given.defaulted "default" none (optional argument)
      description := ← given.defaulted "description" "" string }

def listing : Decoder Listing :=
  fun node => do
    let given ← fields ["name", "description", "tags", "arguments"] node
    return {
      name := ← given.required "name" string
      description := ← given.defaulted "description" "" string
      tags := ← given.defaulted "tags" [] (list string)
      parameters := ← given.defaulted "arguments" [] (list parameter) }

def listings : Decoder (List Listing) :=
  fun node => do
    let given ← fields ["templates"] node
    given.defaulted "templates" [] (list listing)

def parse (text : String) : Except Error (List Listing) :=
  match decode listings text with
  | some result => .ok result
  | none => .error (.config .badManifest)

end Manifest
end TransformChain
