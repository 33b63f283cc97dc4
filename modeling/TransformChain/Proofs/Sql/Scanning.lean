import Mathlib.Data.List.Infix
import TransformChain.Proofs.Text.Identifiers
import TransformChain.Proofs.Text.Splicing

/-!
# Scanning SQL

A scan goes through a text of SQL character by character and keeps track of quotes, comments and
parentheses.  A text is closed if the line after it is outside of all of them again, so that
nothing in it reaches into what follows on the next line.  The outline of a text tells what stands
outside of its outermost parentheses and what is between them.
-/

namespace TransformChain
namespace Sql

/-!
## Quotes and comments
-/

/-- What a character of SQL stands in.  A dash and a slash are plain, but may turn out to begin a
comment, as a star in a block comment may turn out to end it. -/
inductive Mode where
  | plain
  | dash
  | slash
  | singleQuoted
  | doubleQuoted
  | lineComment
  | blockComment
  | star
deriving Repr, DecidableEq

namespace Mode

def isPlain : Mode → Bool
  | plain | dash | slash => true
  | _ => false

def ofFirst (c : Char) : Mode :=
  if c = '\'' then singleQuoted
  else if c = '"' then doubleQuoted
  else if c = '-' then dash
  else if c = '/' then slash
  else plain

def next : Mode → Char → Mode
  | plain, c => ofFirst c
  | dash, c => if c = '-' then lineComment else ofFirst c
  | slash, c => if c = '*' then blockComment else ofFirst c
  | singleQuoted, c => if c = '\'' then plain else singleQuoted
  | doubleQuoted, c => if c = '"' then plain else doubleQuoted
  | lineComment, c => if c = '\n' then plain else lineComment
  | blockComment, c => if c = '*' then star else blockComment
  | star, c => if c = '/' then plain else if c = '*' then star else blockComment

/-- A line feed ends a line comment, and leaves quotes and block comments open. -/
theorem next_lineFeed_eq_plain_iff (mode : Mode) :
    mode.next '\n' = plain ↔ mode.isPlain = true ∨ mode = lineComment := by
  cases mode <;> decide

theorem next_eq_dash {mode : Mode} {c : Char} (h : mode.next c = dash) : c = '-' := by
  cases mode <;> grind [next, ofFirst]

theorem next_eq_lineComment {mode : Mode} {c : Char} (h : mode.next c = lineComment) :
    mode = lineComment ∨ mode = dash ∧ c = '-' := by
  cases mode <;> grind [next, ofFirst]

end Mode

/-- Neither a quote nor a parenthesis, and no part of what begins a comment. -/
def isOrdinary (c : Char) : Bool :=
  c != '\'' && c != '"' && c != '-' && c != '/' && c != '(' && c != ')' && c != '*'

theorem Mode.next_of_isOrdinary {mode : Mode} {c : Char} (hmode : mode.isPlain = true)
    (hc : isOrdinary c = true) : mode.next c = plain := by
  cases mode <;> grind [isPlain, next, ofFirst, isOrdinary]

theorem isOrdinary_of_isIdentifier {name : String} (h : Text.isIdentifier name = true) :
    ∀ c ∈ name.toList, isOrdinary c = true := by
  intro c hc
  have hpart := Text.isIdentifierChar_of_mem h hc
  have hne : ∀ d : Char, Text.isIdentifierChar d = false → c ≠ d := by
    rintro d hd rfl
    rw [hpart] at hd
    cases hd
  simp only [isOrdinary, Bool.and_eq_true, bne_iff_ne]
  exact ⟨⟨⟨⟨⟨⟨hne _ rfl, hne _ rfl⟩, hne _ rfl⟩, hne _ rfl⟩, hne _ rfl⟩, hne _ rfl⟩, hne _ rfl⟩

/-!
## Scans
-/

/-- Where a scan stands: what it is inside of, and how many parentheses are open. -/
structure Place where
  mode : Mode
  depth : Nat
deriving Repr, DecidableEq

namespace Place

def start : Place := ⟨.plain, 0⟩

/-- Goes past a character.  Parentheses count outside of quotes and comments only, and the scan
ends at one that closes nothing. -/
def read (place : Place) (c : Char) : Option Place :=
  if place.mode.isPlain = true ∧ c = '(' then some ⟨.plain, place.depth + 1⟩
  else if place.mode.isPlain = true ∧ c = ')' then
    match place.depth with
    | 0 => none
    | depth + 1 => some ⟨.plain, depth⟩
  else some ⟨place.mode.next c, place.depth⟩

theorem read_lineFeed (place : Place) :
    place.read '\n' = some ⟨place.mode.next '\n', place.depth⟩ := by
  unfold read
  rw [if_neg fun h => absurd h.right (by decide), if_neg fun h => absurd h.right (by decide)]

theorem read_deeper {place next : Place} {c : Char} (h : place.read c = some next) (k : Nat) :
    read ⟨place.mode, place.depth + k⟩ c = some ⟨next.mode, next.depth + k⟩ := by
  unfold read at h ⊢
  split at h
  case isTrue hopen =>
    cases h
    rw [if_pos hopen, Nat.add_right_comm]
  case isFalse hopen =>
    rw [if_neg hopen]
    split at h
    case isTrue hclose =>
      rw [if_pos hclose]
      obtain ⟨mode, depth⟩ := place
      cases depth with
      | zero => cases h
      | succ depth =>
          cases h
          rw [Nat.add_right_comm]
    case isFalse hclose =>
      cases h
      rw [if_neg hclose]

theorem read_mode {place next : Place} {c : Char} (h : place.read c = some next) :
    next.mode = place.mode.next c := by
  unfold read at h
  split at h
  case isTrue hopen =>
    cases h
    rw [hopen.right]
    cases hmode : place.mode <;> simp_all [Mode.isPlain] <;> rfl
  case isFalse =>
    split at h
    case isTrue hclose =>
      split at h <;> cases h
      rw [hclose.right]
      cases hmode : place.mode <;> simp_all [Mode.isPlain] <;> rfl
    case isFalse =>
      cases h
      rfl

end Place

def scan (place : Place) (text : List Char) : Option Place :=
  text.foldlM Place.read place

/-- Scanned from the outside and followed by a line feed, the text ends outside of quotes, comments
and parentheses, and it closes no parenthesis that it does not open. -/
def Closed (text : String) : Prop :=
  scan .start (text.toList ++ ['\n']) = some .start

instance (text : String) : Decidable (Closed text) :=
  inferInstanceAs (Decidable (scan .start (text.toList ++ ['\n']) = some .start))

section Scan

variable {place next : Place} {front rest : List Char} {mode : Mode}

theorem scan_append (h : scan place front = some next) :
    scan place (front ++ rest) = scan next rest := by
  unfold scan at h ⊢
  rw [List.foldlM_append, h]
  rfl

theorem scan_cons {c : Char} (h : place.read c = some next) :
    scan place (c :: rest) = scan next rest := by
  unfold scan
  rw [List.foldlM_cons, h]
  rfl

theorem scan_cons_eq_some {c : Char} {last : Place} (h : scan place (c :: rest) = some last) :
    ∃ next, place.read c = some next ∧ scan next rest = some last := by
  unfold scan at h
  rw [List.foldlM_cons] at h
  exact Option.bind_eq_some_iff.mp h

theorem scan_append_eq_some {last : Place} (h : scan place (front ++ rest) = some last) :
    ∃ next, scan place front = some next ∧ scan next rest = some last := by
  unfold scan at h
  rw [List.foldlM_append] at h
  exact Option.bind_eq_some_iff.mp h

theorem read_of_isOrdinary {c : Char} (hmode : mode.isPlain = true) (hc : isOrdinary c = true)
    (depth : Nat) : Place.read ⟨mode, depth⟩ c = some ⟨.plain, depth⟩ := by
  have hnext := Mode.next_of_isOrdinary hmode hc
  simp only [isOrdinary, Bool.and_eq_true, bne_iff_ne] at hc
  have hopen : ¬(mode.isPlain = true ∧ c = '(') := fun h => hc.left.left.right h.right
  have hclose : ¬(mode.isPlain = true ∧ c = ')') := fun h => hc.left.right h.right
  unfold Place.read
  simp only
  rw [if_neg hopen, if_neg hclose, hnext]

theorem scan_of_isOrdinary (h : ∀ c ∈ front, isOrdinary c = true) (depth : Nat) :
    scan ⟨.plain, depth⟩ front = some ⟨.plain, depth⟩ := by
  induction front with
  | nil => rfl
  | cons c front ih =>
      obtain ⟨hc, hfront⟩ := List.forall_mem_cons.mp h
      rw [scan_cons (read_of_isOrdinary rfl hc depth), ih hfront]

theorem scan_behind_plain (hmode : mode.isPlain = true) (hne : front ≠ [])
    (h : ∀ c ∈ front, isOrdinary c = true) (depth : Nat) :
    scan ⟨mode, depth⟩ front = some ⟨.plain, depth⟩ := by
  cases front with
  | nil => exact absurd rfl hne
  | cons c rest =>
      obtain ⟨hc, hrest⟩ := List.forall_mem_cons.mp h
      rw [scan_cons (read_of_isOrdinary hmode hc depth)]
      exact scan_of_isOrdinary hrest depth

def lines (sql : String) : List Char :=
  '\n' :: (sql.toList ++ ['\n'])

theorem Closed.scan_lines {sql : String} (h : Closed sql) :
    scan .start (lines sql) = some .start := by
  have hline : Place.start.read '\n' = some .start := rfl
  exact (scan_cons hline).trans h

theorem closed_of_scan_eq {sql : String} (h : scan .start sql.toList = some .start) :
    Closed sql := by
  unfold Closed
  rw [scan_append h]
  rfl

theorem Closed.exists_mode {sql : String} (h : Closed sql) :
    ∃ mode, scan .start sql.toList = some ⟨mode, 0⟩ ∧
      (mode.isPlain = true ∨ mode = .lineComment) := by
  rcases scan_append_eq_some h with ⟨⟨mode, depth⟩, hsql, hline⟩
  rcases scan_cons_eq_some hline with ⟨last, hread, hend⟩
  cases hend
  have hmode : Mode.plain = mode.next '\n' := Place.read_mode hread
  have hdepth : depth = 0 := by
    rw [Place.read_lineFeed] at hread
    exact congrArg Place.depth (Option.some.inj hread)
  rw [hdepth] at hsql
  exact ⟨mode, hsql, (Mode.next_lineFeed_eq_plain_iff mode).mp hmode.symm⟩

theorem dashes_of_lineComment (h : scan place front = some next)
    (hnext : next.mode = .lineComment) :
    place.mode = .lineComment ∨ (place.mode = .dash ∧ ['-'] <+: front) ∨
      ['-', '-'] <:+: front := by
  induction front generalizing place with
  | nil =>
      cases h
      exact Or.inl hnext
  | cons c front ih =>
      rcases scan_cons_eq_some h with ⟨between, hread, hrest⟩
      have hmode := Place.read_mode hread
      rcases ih hrest with hline | ⟨hdash, hprefix⟩ | hinfix
      · rw [hmode] at hline
        rcases Mode.next_eq_lineComment hline with hbefore | ⟨hbefore, rfl⟩
        · exact Or.inl hbefore
        · exact Or.inr (Or.inl ⟨hbefore, List.prefix_append ['-'] front⟩)
      · rw [hmode] at hdash
        rw [Mode.next_eq_dash hdash]
        rcases hprefix with ⟨more, rfl⟩
        exact Or.inr (Or.inr ⟨[], more, rfl⟩)
      · exact Or.inr (Or.inr (List.infix_cons hinfix))

end Scan

/-!
## Outlines
-/

/-- A text taken apart at its outermost parentheses: what stands outside of them, the parentheses
included, what each pair of them holds, and what was read since one that is still open. -/
structure Outline where
  place : Place
  outside : List Char
  groups : List (List Char)
  inside : List Char
deriving Repr, DecidableEq

def Outline.read (outline : Outline) (c : Char) : Option Outline :=
  match outline.place.read c with
  | none => none
  | some next =>
      if outline.place.depth = 0 then
        some { outline with place := next, outside := outline.outside ++ [c] }
      else if next.depth = 0 then
        some ⟨next, outline.outside ++ [c], outline.groups ++ [outline.inside], []⟩
      else
        some { outline with place := next, inside := outline.inside ++ [c] }

def outlineFrom (outline : Outline) (text : List Char) : Option Outline :=
  text.foldlM Outline.read outline

def outline (text : String) : Option Outline :=
  outlineFrom ⟨.start, [], [], []⟩ text.toList

section Outlines

variable {place next : Place} {before after : Outline} {text front rest outside inside : List Char}
variable {groups : List (List Char)}

theorem outlineFrom_append (h : outlineFrom before front = some after) :
    outlineFrom before (front ++ rest) = outlineFrom after rest := by
  unfold outlineFrom at h ⊢
  rw [List.foldlM_append, h]
  rfl

theorem outlineFrom_cons {c : Char} (h : before.read c = some after) :
    outlineFrom before (c :: rest) = outlineFrom after rest := by
  unfold outlineFrom
  rw [List.foldlM_cons, h]
  rfl

theorem outlineFrom_cons_eq_some {c : Char} {last : Outline}
    (h : outlineFrom before (c :: rest) = some last) :
    ∃ after, before.read c = some after ∧ outlineFrom after rest = some last := by
  unfold outlineFrom at h
  rw [List.foldlM_cons] at h
  exact Option.bind_eq_some_iff.mp h

theorem Outline.read_place {c : Char} (h : before.read c = some after) :
    before.place.read c = some after.place := by
  unfold Outline.read at h
  cases hread : before.place.read c with
  | none => simp [hread] at h
  | some next =>
      simp only [hread] at h
      split at h
      · cases h
        rfl
      · split at h <;> cases h <;> rfl

theorem scan_of_outlineFrom (h : outlineFrom before text = some after) :
    scan before.place text = some after.place := by
  induction text generalizing before with
  | nil =>
      cases h
      rfl
  | cons c text ih =>
      rcases outlineFrom_cons_eq_some h with ⟨between, hread, hrest⟩
      rw [scan_cons (Outline.read_place hread), ih hrest]

theorem closed_of_outline {sql : String} (h : outline sql = some after)
    (hplace : after.place = .start) : Closed sql := by
  have hscan : scan .start sql.toList = some after.place := scan_of_outlineFrom h
  exact closed_of_scan_eq (hplace ▸ hscan)

def Outline.Settled (outline : Outline) : Prop :=
  outline.place.depth = 0 → outline.inside = []

theorem Outline.exists_read {c : Char} (hread : before.place.read c = some next)
    (hsettled : before.Settled) :
    ∃ after, before.read c = some after ∧ after.place = next ∧ after.Settled := by
  unfold Outline.read
  rw [hread]
  simp only
  by_cases hplace : before.place.depth = 0
  · rw [if_pos hplace]
    exact ⟨_, rfl, rfl, fun _ => hsettled hplace⟩
  · rw [if_neg hplace]
    by_cases hnext : next.depth = 0
    · rw [if_pos hnext]
      exact ⟨_, rfl, rfl, fun _ => rfl⟩
    · rw [if_neg hnext]
      exact ⟨_, rfl, rfl, fun hzero => absurd hzero hnext⟩

theorem exists_outlineFrom (h : scan before.place text = some next) (hsettled : before.Settled) :
    ∃ after, outlineFrom before text = some after ∧ after.place = next ∧ after.Settled := by
  induction text generalizing before with
  | nil =>
      cases h
      exact ⟨before, rfl, rfl, hsettled⟩
  | cons c text ih =>
      rcases scan_cons_eq_some h with ⟨place, hread, hrest⟩
      rcases Outline.exists_read hread hsettled with ⟨between, hbetween, rfl, hnext⟩
      rw [outlineFrom_cons hbetween]
      exact ih hrest hnext

theorem outlineFrom_of_isOrdinary (h : ∀ c ∈ text, isOrdinary c = true) :
    outlineFrom ⟨.start, outside, groups, inside⟩ text =
      some ⟨.start, outside ++ text, groups, inside⟩ := by
  induction text generalizing outside with
  | nil =>
      rw [List.append_nil]
      rfl
  | cons c text ih =>
      obtain ⟨hc, htext⟩ := List.forall_mem_cons.mp h
      have hread : Place.start.read c = some .start := read_of_isOrdinary rfl hc 0
      have hoccurs : Outline.read ⟨.start, outside, groups, inside⟩ c =
          some ⟨.start, outside ++ [c], groups, inside⟩ := by
        unfold Outline.read
        rw [hread]
        rfl
      rw [outlineFrom_cons hoccurs, ih htext, List.append_assoc]
      rfl

theorem outlineFrom_inside (h : scan place text = some next) :
    outlineFrom ⟨⟨place.mode, place.depth + 1⟩, outside, groups, inside⟩ text =
      some ⟨⟨next.mode, next.depth + 1⟩, outside, groups, inside ++ text⟩ := by
  induction text generalizing place inside with
  | nil =>
      cases h
      rw [List.append_nil]
      rfl
  | cons c text ih =>
      rcases scan_cons_eq_some h with ⟨between, hread, hrest⟩
      have hoccurs :
          Outline.read ⟨⟨place.mode, place.depth + 1⟩, outside, groups, inside⟩ c =
            some ⟨⟨between.mode, between.depth + 1⟩, outside, groups, inside ++ [c]⟩ := by
        unfold Outline.read
        rw [Place.read_deeper hread 1]
        simp
      rw [outlineFrom_cons hoccurs, ih hrest, List.append_assoc]
      rfl

theorem outlineFrom_group (h : scan .start text = some .start) :
    outlineFrom ⟨.start, outside, groups, []⟩ ('(' :: (text ++ [')'])) =
      some ⟨.start, outside ++ ['(', ')'], groups ++ [text], []⟩ := by
  have hopen : Outline.read ⟨.start, outside, groups, []⟩ '(' =
      some ⟨⟨.plain, 1⟩, outside ++ ['('], groups, []⟩ := rfl
  have hinside : outlineFrom ⟨⟨.plain, 1⟩, outside ++ ['('], groups, []⟩ text =
      some ⟨⟨.plain, 1⟩, outside ++ ['('], groups, text⟩ := outlineFrom_inside h
  have hclose : Outline.read ⟨⟨.plain, 1⟩, outside ++ ['('], groups, text⟩ ')' =
      some ⟨.start, outside ++ ['('] ++ [')'], groups ++ [text], []⟩ := rfl
  rw [outlineFrom_cons hopen, outlineFrom_append hinside, outlineFrom_cons hclose,
    List.append_assoc]
  rfl

theorem Outline.read_behind {c : Char} (h : before.read c = some after) (front : List Char)
    (earlier : List (List Char)) :
    Outline.read ⟨before.place, front ++ before.outside, earlier ++ before.groups, before.inside⟩
        c =
      some ⟨after.place, front ++ after.outside, earlier ++ after.groups, after.inside⟩ := by
  unfold Outline.read at h ⊢
  cases hread : before.place.read c with
  | none => simp [hread] at h
  | some next =>
      simp only [hread] at h ⊢
      split at h
      case isTrue hzero =>
        cases h
        rw [if_pos hzero, List.append_assoc]
      case isFalse hzero =>
        rw [if_neg hzero]
        split at h
        case isTrue hnext =>
          cases h
          rw [if_pos hnext, List.append_assoc, List.append_assoc]
        case isFalse hnext =>
          cases h
          rw [if_neg hnext]

theorem outlineFrom_behind (h : outlineFrom before text = some after) (front : List Char)
    (earlier : List (List Char)) :
    outlineFrom ⟨before.place, front ++ before.outside, earlier ++ before.groups, before.inside⟩
        text =
      some ⟨after.place, front ++ after.outside, earlier ++ after.groups, after.inside⟩ := by
  induction text generalizing before with
  | nil =>
      cases h
      rfl
  | cons c text ih =>
      rcases outlineFrom_cons_eq_some h with ⟨between, hread, hrest⟩
      rw [outlineFrom_cons (Outline.read_behind hread front earlier), ih hrest]

end Outlines

end Sql
end TransformChain
