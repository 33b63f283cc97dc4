/-!
# Joining and cutting texts
-/

namespace TransformChain
namespace Text

def join (separator : String) : List String → String
  | [] => ""
  | [s] => s
  | s :: t :: rest => s ++ separator ++ join separator (t :: rest)

def splitChar (separator : Char) : List Char → List (List Char)
  | [] => [[]]
  | c :: rest =>
      match splitChar separator rest with
      | [] => [[c]]
      | part :: parts => if c = separator then [] :: part :: parts else (c :: part) :: parts

def afterStart? [DecidableEq α] : List α → List α → Option (List α)
  | [], rest => some rest
  | _ :: _, [] => none
  | a :: as, b :: bs => if a = b then afterStart? as bs else none

def startsWith (start text : List Char) : Bool :=
  (afterStart? start text).isSome

def containsPart (part : List Char) : List Char → Bool
  | [] => part.isEmpty
  | c :: rest => startsWith part (c :: rest) || containsPart part rest

def afterLast (separator : Char) (cs : List Char) : List Char :=
  (cs.reverse.takeWhile (fun c => c != separator)).reverse

def firstLine (cs : List Char) : List Char :=
  let line := cs.takeWhile (fun c => c != '\n')
  if line.length < cs.length then
    match line.getLast? with
    | some '\r' => line.dropLast
    | _ => line
  else
    line

/-- At most forty characters of the first line, for messages. -/
def snippet (cs : List Char) : String :=
  String.ofList ((firstLine cs).take 40)

end Text
end TransformChain
