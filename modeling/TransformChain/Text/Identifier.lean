import TransformChain.Text.Blank
import TransformChain.Text.Case

/-!
# Identifiers

Unquoted SQL identifiers, and the identifier made from any text.
-/

namespace TransformChain
namespace Text

def isIdentifierStart (c : Char) : Bool :=
  c.isAlpha || c == '_'

def isIdentifierChar (c : Char) : Bool :=
  c.isAlphanum || c == '_'

def isIdentifier (s : String) : Bool :=
  match s.toList with
  | [] => false
  | c :: rest => isIdentifierStart c && rest.all isIdentifierChar

def underscored (c : Char) : Char :=
  if c == ' ' || c == '-' then '_' else c

def isCleansed (c : Char) : Bool :=
  c.isUpper || c.isDigit || c == '_'

def cleanseChars (cs : List Char) : List Char :=
  let kept := (upperChars ((trimChars cs).map underscored)).filter isCleansed
  match kept with
  | [] => ['_']
  | c :: _ => if c.isDigit then '_' :: kept else kept

/-- The upper-case identifier made from a text: surrounding white space is dropped, spaces and
dashes become underscores, other characters are removed, and an underscore comes first where the
name would be empty or start with a digit. -/
def cleanse (s : String) : String :=
  String.ofList (cleanseChars s.toList)

end Text
end TransformChain
