import TransformChain.Value

/-!
# SQL literals

Strings stand between single quotes, and a quote inside is written twice.
-/

namespace TransformChain
namespace Literal

def escape : List Char → List Char
  | [] => []
  | c :: rest => if c = '\'' then '\'' :: '\'' :: escape rest else c :: escape rest

def quoteString (s : String) : String :=
  String.ofList ('\'' :: escape s.toList ++ ['\''])

mutual

/-- The literal of a value.  A list gives the literals of its items, separated by commas. -/
def quote : Value → String
  | .null => "NULL"
  | .str s => quoteString s
  | .list items => Text.join ", " (quoteAll items)
  | value => value.display

def quoteAll : List Value → List String
  | [] => []
  | item :: rest => quote item :: quoteAll rest

end

end Literal
end TransformChain
