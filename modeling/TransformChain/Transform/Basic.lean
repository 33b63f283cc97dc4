import TransformChain.Json.Writing
import TransformChain.Template.Rendering

/-!
# Transforms

A transform is a named SQL template with declared parameters.  Its parameters have distinct names,
and none of them takes the name under which templates see their input.
-/

namespace TransformChain

structure Parameter where
  name : String
  shape : Shape
  required : Bool
  default : Option Argument
  description : String

/-- What a manifest says about a transform, whose template text is kept apart. -/
structure Listing where
  name : String
  description : String
  tags : List String
  parameters : List Parameter

def sourceVariable : String := "source_table"

structure Transform where
  name : String
  description : String
  tags : List String
  parameters : List Parameter
  template : Template

namespace Transform

def nameFault? (seen : List String) : List Parameter → Option SyntaxFault
  | [] => none
  | p :: rest =>
      if p.name = sourceVariable then some .reservedParameter
      else if seen.contains p.name then some (.repeatedParameter p.name)
      else nameFault? (p.name :: seen) rest

def create (listing : Listing) (body : String) : Except Error Transform :=
  match nameFault? [] listing.parameters with
  | some fault => .error (.templateSyntax listing.name fault)
  | none =>
      match Template.parse listing.name body with
      | .error e => .error e
      | .ok template =>
          .ok ⟨listing.name, listing.description, listing.tags, listing.parameters, template⟩

def parameter? (transform : Transform) (name : String) : Option Parameter :=
  transform.parameters.find? (fun p => p.name == name)

/-!
## Descriptions
-/

def parameterSignature (p : Parameter) : String :=
  p.name ++ (if p.required then "" else "?") ++ ": " ++ p.shape.name

/-- The name with the parameters; a question mark follows those that may be left out. -/
def signature (transform : Transform) : String :=
  transform.name ++ "(" ++ Text.join ", " (transform.parameters.map parameterSignature) ++ ")"

def defaultText (p : Parameter) : String :=
  if p.required then ""
  else
    match p.default with
    | some value => " = " ++ (Json.write value).getD ""
    | none => " (optional)"

def parameterLine (p : Parameter) : String :=
  "  " ++ p.name ++ ": " ++ p.shape.name ++ defaultText p ++
    (if p.description = "" then "" else "  # " ++ p.description) ++ "\n"

def definition (transform : Transform) : String :=
  let description :=
    if transform.description = "" then "" else "Description: " ++ transform.description ++ "\n"
  let tags :=
    if transform.tags.isEmpty then "" else "Tags: " ++ Text.join ", " transform.tags ++ "\n"
  let parameters :=
    if transform.parameters.isEmpty then ""
    else "Arguments:\n" ++ String.join (transform.parameters.map parameterLine)
  "Transform: " ++ transform.signature ++ "\n" ++ description ++ tags ++ parameters ++
    "Source:\n" ++ transform.template.source

end Transform
end TransformChain
