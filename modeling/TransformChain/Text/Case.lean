import TransformChain.Text.CaseTable

/-!
# Letter case

Full upper and lower case of a text.  One character may become several, and a capital sigma at
the end of a word becomes a final sigma.
-/

namespace TransformChain
namespace Text

/-!
## Single characters
-/

namespace CaseTable

def mapped? (runs : Array Run) (code : Nat) : Option Nat :=
  match runs.find? (fun run => run.contains code) with
  | some run => some (Int.toNat (code + run.distance))
  | none => none

def inRanges (ranges : Array (Nat × Nat)) (code : Nat) : Bool :=
  ranges.any (fun range => range.1 ≤ code && code ≤ range.2)

end CaseTable

def upperChar (c : Char) : List Char :=
  if c.toNat < 128 then
    [c.toUpper]
  else
    match CaseTable.upperExpansions.find? (fun entry => entry.1 == c.toNat) with
    | some entry => entry.2.map Char.ofNat
    | none =>
        match CaseTable.mapped? CaseTable.upperRuns c.toNat with
        | some code => [Char.ofNat code]
        | none => [c]

def lowerChar (c : Char) : List Char :=
  if c.toNat < 128 then
    [c.toLower]
  else if c.toNat == 0x130 then
    ['i', Char.ofNat 0x307]
  else
    match CaseTable.mapped? CaseTable.lowerRuns c.toNat with
    | some code => [Char.ofNat code]
    | none => [c]

def isCased (c : Char) : Bool :=
  c.isAlpha || CaseTable.inRanges CaseTable.casedRanges c.toNat

def isCaseIgnorable (c : Char) : Bool :=
  c == '\'' || c == '.' || c == ':' || c == '^' || c == Char.ofNat 96 ||
    CaseTable.inRanges CaseTable.ignorableRanges c.toNat

/-!
## Texts
-/

/-- Whether the nearest character that counts for letter case has one. -/
def meetsCased (cs : List Char) : Bool :=
  match cs.dropWhile isCaseIgnorable with
  | [] => false
  | c :: _ => isCased c

/-- Lower case of the characters that follow `before`, which is kept in reverse. -/
def lowerAfter (before : List Char) : List Char → List Char
  | [] => []
  | c :: rest =>
      let form :=
        if c.toNat == 0x3A3 then
          if meetsCased before && !meetsCased rest then [Char.ofNat 0x3C2] else [Char.ofNat 0x3C3]
        else
          lowerChar c
      form ++ lowerAfter (c :: before) rest

def upperChars (cs : List Char) : List Char :=
  cs.flatMap upperChar

def upper (s : String) : String :=
  String.ofList (upperChars s.toList)

def lower (s : String) : String :=
  String.ofList (lowerAfter [] s.toList)

def upperAscii (s : String) : String :=
  String.ofList (s.toList.map Char.toUpper)

def lowerAscii (s : String) : String :=
  String.ofList (s.toList.map Char.toLower)

end Text
end TransformChain
