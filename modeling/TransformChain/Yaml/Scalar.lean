import TransformChain.Yaml.Cursor

/-!
# Scalars

Reads plain, quoted and block scalars.  Line breaks inside plain and quoted scalars fold: a single
one becomes a space, and each further one is kept.
-/

namespace TransformChain
namespace Yaml

/-!
## Folding
-/

structure Spacing where
  blanks : List Char
  first : List Char
  others : List Char
  crossed : Bool

namespace Spacing

def none : Spacing :=
  ⟨[], [], [], false⟩

def folded (spacing : Spacing) : List Char :=
  if spacing.crossed then
    match spacing.first with
    | ['\n'] => if spacing.others.isEmpty then [' '] else spacing.others
    | first => first ++ spacing.others
  else
    spacing.blanks

end Spacing

/-- Reads spaces, tabs and line breaks.  Where `margin` is given, a tab left of it after a line
break is an error. -/
def readSpacing (margin : Option Int) : Nat → Spacing → Cursor → Option (Spacing × Cursor)
  | 0, _, _ => Option.none
  | budget + 1, spacing, cursor =>
      match cursor.rest with
      | [] => some (spacing, cursor)
      | c :: _ =>
          if isSpace c then
            let strays :=
              match margin with
              | some m => spacing.crossed && c == '\t' && Int.ofNat cursor.column < m
              | Option.none => false
            if strays then
              Option.none
            else
              let next :=
                if spacing.crossed then spacing
                else { spacing with blanks := spacing.blanks ++ [c] }
              readSpacing margin budget next (cursor.skip 1)
          else if isBreak c then
            let (text, after) := cursor.readBreak
            let next :=
              if spacing.crossed then { spacing with others := spacing.others ++ text }
              else { spacing with blanks := [], first := text, crossed := true }
            readSpacing margin budget next after
          else
            some (spacing, cursor)

/-!
## Plain scalars
-/

def isFlowMark (c : Char) : Bool :=
  c == ',' || c == '[' || c == ']' || c == '\x7b' || c == '\x7d'

def readPlainWord (inFlow : Bool) : List Char → Option (List Char × List Char)
  | [] => some ([], [])
  | c :: rest =>
      let next := rest.head?
      if isSpace c || isBreak c then
        some ([], c :: rest)
      else if inFlow && c == ':' && next.any (fun d => isFlowMark d || d == '?') then
        Option.none
      else if c == ':' && atBlank rest then
        some ([], c :: rest)
      else if inFlow && isFlowMark c then
        some ([], c :: rest)
      else
        match readPlainWord inFlow rest with
        | some (word, after) => some (c :: word, after)
        | Option.none => Option.none

/-- The parts of a plain scalar after the first, and whether a line break came last. -/
def readPlainParts (inFlow : Bool) (margin : Int) :
    Nat → List Char → Spacing → Cursor → Option (List Char × Bool × Cursor)
  | 0, _, _, _ => Option.none
  | budget + 1, text, spacing, cursor =>
      if cursor.atMarker || cursor.peek? == some '#' then
        some (text, spacing.crossed, cursor)
      else
        match readPlainWord inFlow cursor.rest with
        | Option.none => Option.none
        | some (word, _) =>
            let after := cursor.skip word.length
            let content := if word.isEmpty then text else text ++ spacing.folded ++ word
            let pending := if word.isEmpty then spacing else Spacing.none
            match after.rest with
            | [] => some (content, pending.crossed, after)
            | c :: _ =>
                if !(isSpace c || isBreak c) then
                  some (content, pending.crossed, after)
                else
                  match readSpacing (some margin) (after.rest.length + 1) pending after with
                  | Option.none => Option.none
                  | some (next, later) =>
                      if !inFlow && Int.ofNat later.column < margin then
                        some (content, next.crossed, later)
                      else
                        readPlainParts inFlow margin budget content next later

/-- A plain scalar whose continuation lines are indented by at least `margin`, with whether a line
break follows it. -/
def readPlain (inFlow : Bool) (margin : Int) (cursor : Cursor) :
    Option (List Char × Bool × Cursor) :=
  readPlainParts inFlow margin (cursor.rest.length + 2) [] Spacing.none cursor

/-!
## Quoted scalars
-/

def hexDigit? (c : Char) : Option Nat :=
  if c.isDigit then some (c.toNat - '0'.toNat)
  else if 'a' ≤ c && c ≤ 'f' then some (c.toNat - 'a'.toNat + 10)
  else if 'A' ≤ c && c ≤ 'F' then some (c.toNat - 'A'.toNat + 10)
  else Option.none

def hexNumber? (cs : List Char) : Option Nat :=
  cs.foldl
    (fun n c =>
      match n, hexDigit? c with
      | some n, some d => some (16 * n + d)
      | _, _ => Option.none)
    (some 0)

def charOfCode? (code : Nat) : Option Char :=
  if h : code.isValidChar then some (Char.ofNatAux code h) else Option.none

def hexEscape? (count : Nat) (rest : List Char) : Option (Char × Nat) :=
  let digits := rest.take count
  if digits.length < count then
    Option.none
  else
    match (hexNumber? digits).bind charOfCode? with
    | some c => some (c, count + 2)
    | Option.none => Option.none

/-- The character that an escape stands for and the length of the escape; `rest` follows the
backslash. -/
def escaped? : List Char → Option (Char × Nat)
  | [] => Option.none
  | c :: rest =>
      match c with
      | '0' => some (Char.ofNat 0, 2)
      | 'a' => some (Char.ofNat 7, 2)
      | 'b' => some (Char.ofNat 8, 2)
      | 't' => some ('\t', 2)
      | '\t' => some ('\t', 2)
      | 'n' => some ('\n', 2)
      | 'v' => some (Char.ofNat 11, 2)
      | 'f' => some (Char.ofNat 12, 2)
      | 'r' => some ('\r', 2)
      | 'e' => some (Char.ofNat 27, 2)
      | ' ' => some (' ', 2)
      | '"' => some ('"', 2)
      | '/' => some ('/', 2)
      | '\\' => some ('\\', 2)
      | 'N' => some (Char.ofNat 0x85, 2)
      | '_' => some (Char.ofNat 0xA0, 2)
      | 'L' => some (Char.ofNat 0x2028, 2)
      | 'P' => some (Char.ofNat 0x2029, 2)
      | 'x' => hexEscape? 2 rest
      | 'u' => hexEscape? 4 rest
      | 'U' => hexEscape? 8 rest
      | _ => Option.none

inductive QuotedEnd where
  | closed
  | blank
  | joined

/-- Reads characters inside quotes up to white space, the closing quote or an escaped line
break. -/
def readQuotedRun (single : Bool) :
    Nat → List Char → Cursor → Option (List Char × QuotedEnd × Cursor)
  | 0, _, _ => Option.none
  | budget + 1, text, cursor =>
      match cursor.rest with
      | [] => some (text, .blank, cursor)
      | c :: rest =>
          if isSpace c || isBreak c then
            some (text, .blank, cursor)
          else if single then
            if c == '\'' then
              if rest.head? == some '\'' then
                readQuotedRun single budget (text ++ ['\'']) (cursor.skip 2)
              else
                some (text, .closed, cursor.skip 1)
            else
              readQuotedRun single budget (text ++ [c]) (cursor.skip 1)
          else if c == '"' then
            some (text, .closed, cursor.skip 1)
          else if c == '\\' then
            if rest.head?.any isBreak then
              some (text, .joined, (cursor.skip 1).nextLine)
            else
              match escaped? rest with
              | some (d, count) => readQuotedRun single budget (text ++ [d]) (cursor.skip count)
              | Option.none => Option.none
          else
            readQuotedRun single budget (text ++ [c]) (cursor.skip 1)

def readQuotedParts (single : Bool) : Nat → List Char → Cursor → Option (List Char × Cursor)
  | 0, _, _ => Option.none
  | budget + 1, text, cursor =>
      if cursor.atMarker || cursor.rest.isEmpty then
        Option.none
      else
        match readQuotedRun single (cursor.rest.length + 1) text cursor with
        | Option.none => Option.none
        | some (content, .closed, after) => some (content, after)
        | some (content, ending, after) =>
            let start :=
              match ending with
              | .joined => { Spacing.none with crossed := true }
              | _ => Spacing.none
            match readSpacing Option.none (after.rest.length + 1) start after with
            | Option.none => Option.none
            | some (spacing, later) =>
                let white := spacing.folded
                readQuotedParts single budget (content ++ white) later

def readQuoted (single : Bool) (cursor : Cursor) : Option (List Char × Cursor) :=
  readQuotedParts single (cursor.rest.length + 1) [] (cursor.skip 1)

/-!
## Block scalars
-/

inductive Chomping where
  | strip
  | clip
  | keep
deriving DecidableEq

def chomping? (c : Char) : Option Chomping :=
  if c == '+' then some .keep else if c == '-' then some .strip else Option.none

def increment? (c : Char) : Option Nat :=
  if c.isDigit then some (c.toNat - '0'.toNat) else Option.none

def blockHeader? (cs : List Char) : Option (Chomping × Option Nat × Nat) :=
  match cs with
  | [] => some (.clip, Option.none, 0)
  | c :: rest =>
      match chomping? c, increment? c with
      | some chomping, _ =>
          match rest.head?.bind increment? with
          | some 0 => Option.none
          | some n => some (chomping, some n, 2)
          | Option.none => some (chomping, Option.none, 1)
      | Option.none, some 0 => Option.none
      | Option.none, some n =>
          match rest.head?.bind chomping? with
          | some chomping => some (chomping, some n, 2)
          | Option.none => some (.clip, some n, 1)
      | Option.none, Option.none => some (.clip, Option.none, 0)

/-- Passes indentation and empty lines; gives the line breaks and the greatest column met.  The
indentation is passed up to `indent`, or all of it where that is not known. -/
def readBlockBreaks (indent : Option Nat) :
    Nat → List Char → Nat → Cursor → Option (List Char × Nat × Cursor)
  | 0, _, _, _ => Option.none
  | budget + 1, breaks, widest, cursor =>
      let spaces := (cursor.rest.takeWhile (fun c => c == ' ')).length
      let count :=
        match indent with
        | some n => min spaces (n - cursor.column)
        | Option.none => spaces
      let start := cursor.skip count
      let reached := max widest start.column
      let strays :=
        start.peek? == some '\t' &&
          match indent with
          | some n => decide (start.column < n)
          | Option.none => true
      if strays then
        Option.none
      else
        match start.readBreak with
        | ([], _) => some (breaks, reached, start)
        | (text, after) => readBlockBreaks indent budget (breaks ++ text) reached after

structure BlockText where
  text : List Char
  leading : List Char
  trailing : List Char
  leadingBlank : Bool

/-- The text so far with the line breaks before a line that begins with a blank or not. -/
def BlockText.joined (literal startsBlank : Bool) (block : BlockText) : List Char :=
  if !literal && block.leading == ['\n'] && !block.leadingBlank && !startsBlank then
    if block.trailing.isEmpty then block.text ++ [' '] else block.text ++ block.trailing
  else
    block.text ++ block.leading ++ block.trailing

def readBlockLines (literal : Bool) (indent : Nat) :
    Nat → BlockText → Cursor → Option (BlockText × Cursor)
  | 0, _, _ => Option.none
  | budget + 1, block, cursor =>
      match cursor.rest with
      | [] => some (block, cursor)
      | c :: _ =>
          if cursor.column != indent then
            some (block, cursor)
          else
            let startsBlank := isSpace c
            let base := block.joined literal startsBlank
            let (line, after) := cursor.readWhile (fun d => !isBreak d)
            let (lineEnd, below) := after.readBreak
            match readBlockBreaks (some indent) (below.rest.length + 1) [] 0 below with
            | Option.none => Option.none
            | some (breaks, _, later) =>
                readBlockLines literal indent budget
                  ⟨base ++ line, lineEnd, breaks, startsBlank⟩ later

def BlockText.finish (chomping : Chomping) (block : BlockText) : List Char :=
  match chomping with
  | .strip => block.text
  | .clip => block.text ++ block.leading
  | .keep => block.text ++ block.leading ++ block.trailing

/-- A block scalar inside a block of the given indentation; the cursor is at its indicator. -/
def readBlock (literal : Bool) (parent : Int) (cursor : Cursor) : Option (List Char × Cursor) :=
  let header := cursor.skip 1
  match blockHeader? header.rest with
  | Option.none => Option.none
  | some (chomping, increment, count) =>
      let (_, blanks) := (header.skip count).readWhile isSpace
      let (_, lineEnd) :=
        if blanks.peek? == some '#' then blanks.readWhile (fun c => !isBreak c)
        else ([], blanks)
      if !atBreak lineEnd.rest then
        Option.none
      else
        let body := lineEnd.nextLine
        let stated := increment.map (fun n => if 0 ≤ parent then parent.toNat + n else n)
        match readBlockBreaks stated (body.rest.length + 1) [] 0 body with
        | Option.none => Option.none
        | some (breaks, widest, start) =>
            let indent :=
              match stated with
              | some n => n
              | Option.none => max (max widest (parent + 1).toNat) 1
            match readBlockLines literal indent (start.rest.length + 1) ⟨[], [], breaks, false⟩
                start with
            | Option.none => Option.none
            | some (block, after) => some (block.finish chomping, after)

end Yaml
end TransformChain
