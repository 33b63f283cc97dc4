import TransformChain.Text.WordTable

/-!
# Words

Word characters, and the search for a whole word whatever its letter case.
-/

namespace TransformChain
namespace Text

/-- Letters, marks, decimal digits, connecting punctuation and joiners. -/
def isWordChar (c : Char) : Bool :=
  if c.toNat < 128 then
    c.isAlphanum || c == '_'
  else
    WordTable.ranges.any (fun range => range.1 ≤ c.toNat && c.toNat ≤ range.2)

/-- The ASCII capital that a character folds to; the long s and the kelvin sign fold to letters. -/
def foldLetter (c : Char) : Char :=
  if c.toNat == 0x17F then 'S'
  else if c.toNat == 0x212A then 'K'
  else c.toUpper

/-- The characters of `cs` that spell `word`, and what follows them. -/
def spelled? : List Char → List Char → Option (List Char × List Char)
  | [], cs => some ([], cs)
  | _ :: _, [] => none
  | w :: ws, c :: cs =>
      if foldLetter c == w then
        match spelled? ws cs with
        | some (taken, rest) => some (c :: taken, rest)
        | none => none
      else
        none

def startsWordChar : List Char → Bool
  | [] => false
  | c :: _ => isWordChar c

def wholeWord? (words : List (List Char)) (cs : List Char) : Option (List Char) :=
  words.findSome? fun word =>
    match spelled? word cs with
    | some (taken, rest) => if startsWordChar rest then none else some taken
    | none => none

/-- The first place where one of `words` stands as a whole word; `inWord` tells whether a word
character comes right before `cs`. -/
def findWord (words : List (List Char)) (inWord : Bool) : List Char → Option (List Char)
  | [] => none
  | c :: cs =>
      match if inWord then none else wholeWord? words (c :: cs) with
      | some taken => some taken
      | none => findWord words (isWordChar c) cs

end Text
end TransformChain
