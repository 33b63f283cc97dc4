import TransformChain.Proofs.Sql.Scanning

/-!
# Statements of a script

A script of SQL is cut at the semicolons that stand outside of quotes and comments.  Statements
that are written one after the other, each with a semicolon right behind it, are found again
exactly if none of them holds such a semicolon or ends inside of quotes or a comment.
-/

namespace TransformChain
namespace Sql

namespace Mode

def after (mode : Mode) (text : List Char) : Mode :=
  text.foldl next mode

theorem after_append (mode : Mode) (front rest : List Char) :
    mode.after (front ++ rest) = (mode.after front).after rest :=
  List.foldl_append

def IsQuiet (mode : Mode) : Prop :=
  mode.isPlain = true ∨ mode = lineComment

end Mode

theorem mode_of_scan {place next : Place} {text : List Char} (h : scan place text = some next) :
    next.mode = place.mode.after text := by
  induction text generalizing place with
  | nil =>
      cases h
      rfl
  | cons c text ih =>
      rcases scan_cons_eq_some h with ⟨between, hread, hrest⟩
      rw [ih hrest, Place.read_mode hread]
      rfl

/-!
## Semicolons
-/

def hasSemicolon : Mode → List Char → Bool
  | _, [] => false
  | mode, c :: rest => (mode.isPlain && c == ';') || hasSemicolon (mode.next c) rest

def pieces : Mode → List Char → List (List Char)
  | _, [] => [[]]
  | mode, c :: rest =>
      if mode.isPlain = true ∧ c = ';' then
        [] :: pieces .plain rest
      else
        match pieces (mode.next c) rest with
        | [] => [[c]]
        | piece :: more => (c :: piece) :: more

/-- The pieces with more than white space in them, without the white space before them. -/
def filled (texts : List (List Char)) : List (List Char) :=
  (texts.map Text.trimStart).filter fun text => !text.isEmpty

def statements (script : String) : List String :=
  (filled (pieces .plain script.toList)).map String.ofList

def EndsInLineComment (sql : String) : Prop :=
  Mode.plain.after sql.toList = .lineComment

instance (sql : String) : Decidable (EndsInLineComment sql) :=
  inferInstanceAs (Decidable (Mode.plain.after sql.toList = .lineComment))

/-- A semicolon behind the text ends it, and none before. -/
def Terminable (sql : String) : Prop :=
  hasSemicolon .plain sql.toList = false ∧ (Mode.plain.after sql.toList).isPlain = true

section Pieces

variable {mode : Mode} {c : Char} {front rest text piece : List Char} {more : List (List Char)}

theorem exists_pieces (mode : Mode) (text : List Char) :
    ∃ piece more, pieces mode text = piece :: more := by
  cases text with
  | nil => exact ⟨[], [], rfl⟩
  | cons c text =>
      unfold pieces
      split
      · exact ⟨_, _, rfl⟩
      · split <;> exact ⟨_, _, rfl⟩

theorem pieces_semicolon (hmode : mode.isPlain = true) :
    pieces mode (';' :: rest) = [] :: pieces .plain rest := by
  rw [pieces, if_pos ⟨hmode, rfl⟩]

theorem pieces_cons (h : ¬(mode.isPlain = true ∧ c = ';'))
    (hrest : pieces (mode.next c) rest = piece :: more) :
    pieces mode (c :: rest) = (c :: piece) :: more := by
  rw [pieces, if_neg h, hrest]

theorem hasSemicolon_cons_eq_false :
    hasSemicolon mode (c :: rest) = false ↔
      ¬(mode.isPlain = true ∧ c = ';') ∧ hasSemicolon (mode.next c) rest = false := by
  simp [hasSemicolon]

theorem hasSemicolon_append :
    hasSemicolon mode (front ++ rest) =
      (hasSemicolon mode front || hasSemicolon (mode.after front) rest) := by
  induction front generalizing mode with
  | nil => rfl
  | cons c front ih =>
      rw [List.cons_append, hasSemicolon, hasSemicolon, ih, Bool.or_assoc]
      rfl

theorem pieces_append (h : hasSemicolon mode front = false)
    (hrest : pieces (mode.after front) rest = piece :: more) :
    pieces mode (front ++ rest) = (front ++ piece) :: more := by
  induction front generalizing mode with
  | nil => exact hrest
  | cons c front ih =>
      obtain ⟨hc, hfront⟩ := hasSemicolon_cons_eq_false.mp h
      exact pieces_cons hc (ih hfront hrest)

theorem pieces_of_hasSemicolon (h : hasSemicolon mode front = true) (rest : List Char) :
    ∃ piece beyond more, pieces mode (front ++ rest) = piece :: more ∧
      front = piece ++ ';' :: beyond := by
  induction front generalizing mode with
  | nil => cases h
  | cons c front ih =>
      by_cases hc : mode.isPlain = true ∧ c = ';'
      · refine ⟨[], front, pieces .plain (front ++ rest), ?_, by rw [hc.right]; rfl⟩
        rw [hc.right, List.cons_append, pieces_semicolon hc.left]
      · have hfront : hasSemicolon (mode.next c) front = true := by
          rw [← Bool.not_eq_false]
          intro hfalse
          rw [hasSemicolon_cons_eq_false.mpr ⟨hc, hfalse⟩] at h
          cases h
        rcases ih hfront with ⟨piece, beyond, more, hpieces, rfl⟩
        exact ⟨c :: piece, beyond, more, pieces_cons hc hpieces, rfl⟩

theorem forall_mem_of_all (h : (text.all fun c => isOrdinary c && c != ';') = true) :
    ∀ c ∈ text, isOrdinary c = true ∧ c ≠ ';' := by
  intro c hc
  have hboth := List.all_eq_true.mp h c hc
  rw [Bool.and_eq_true, bne_iff_ne] at hboth
  exact hboth

theorem isQuiet_after (h : ∀ c ∈ text, isOrdinary c = true ∧ c ≠ ';') (hmode : mode.IsQuiet) :
    (mode.after text).IsQuiet ∧ hasSemicolon mode text = false := by
  induction text generalizing mode with
  | nil => exact ⟨hmode, rfl⟩
  | cons c text ih =>
      obtain ⟨⟨hc, hsemicolon⟩, htext⟩ := List.forall_mem_cons.mp h
      have hnext : (mode.next c).IsQuiet := by
        rcases hmode with hplain | rfl
        · rw [Mode.next_of_isOrdinary hplain hc]
          exact Or.inl rfl
        · change Mode.IsQuiet (if c = '\n' then .plain else .lineComment)
          split
          · exact Or.inl rfl
          · exact Or.inr rfl
      have hrest := ih htext hnext
      refine ⟨hrest.left, hasSemicolon_cons_eq_false.mpr ⟨?_, hrest.right⟩⟩
      exact fun hand => hsemicolon hand.right

theorem Closed.isQuiet {sql : String} (h : Closed sql) :
    (Mode.plain.after sql.toList).IsQuiet := by
  rcases h.exists_mode with ⟨mode, hscan, hmode⟩
  have hafter : mode = Mode.plain.after sql.toList := mode_of_scan hscan
  rw [← hafter]
  exact hmode

end Pieces

/-!
## Statements one after the other
-/

def BeginsSolid (text : List Char) : Prop :=
  ∃ c rest, text = c :: rest ∧ Text.isBlank c = false ∧ c ≠ ';'

theorem BeginsSolid.append {text : List Char} (h : BeginsSolid text) (rest : List Char) :
    BeginsSolid (text ++ rest) := by
  rcases h with ⟨c, text, rfl, hc, hne⟩
  exact ⟨c, text ++ rest, rfl, hc, hne⟩

section Filled

variable {text front rest piece : List Char} {texts : List (List Char)}

theorem filled_cons (h : BeginsSolid text) : filled (text :: texts) = text :: filled texts := by
  rcases h with ⟨c, rest, rfl, hc, -⟩
  simp [filled, Text.trimStart, hc]

theorem filled_pieces_blank (hblank : ∀ c ∈ front, Text.isBlank c = true)
    (hordinary : ∀ c ∈ front, isOrdinary c = true ∧ c ≠ ';') (rest : List Char) :
    filled (pieces .plain (front ++ rest)) = filled (pieces (Mode.plain.after front) rest) := by
  rcases exists_pieces (Mode.plain.after front) rest with ⟨piece, more, hrest⟩
  have hfront := (isQuiet_after hordinary (Or.inl (rfl : Mode.plain.isPlain = true))).right
  rw [pieces_append hfront hrest, hrest]
  have htrim : Text.trimStart (front ++ piece) = Text.trimStart piece :=
    List.dropWhile_append_of_pos hblank
  simp [filled, htrim]

theorem filled_pieces_eq_cons_iff {sql : String} (h : BeginsSolid sql.toList)
    (tail : List Char) (others : List (List Char)) :
    filled (pieces .plain (sql.toList ++ ';' :: tail)) = sql.toList :: others ↔
      Terminable sql ∧ filled (pieces .plain tail) = others := by
  cases hsemicolon : hasSemicolon .plain sql.toList with
  | true =>
      rcases pieces_of_hasSemicolon hsemicolon (';' :: tail) with
        ⟨piece, beyond, more, hpieces, hsql⟩
      have hpiece : BeginsSolid piece := by
        rcases h with ⟨c, rest, hlist, hc, hne⟩
        rw [hsql] at hlist
        cases piece with
        | nil =>
            cases hlist
            exact absurd rfl hne
        | cons d piece =>
            cases hlist
            exact ⟨c, piece, rfl, hc, hne⟩
      rw [hpieces, filled_cons hpiece]
      constructor
      · intro heq
        have hlength := congrArg List.length (List.cons.inj heq).left
        rw [hsql] at hlength
        simp at hlength
      · rintro ⟨⟨hnone, -⟩, -⟩
        rw [hsemicolon] at hnone
        cases hnone
  | false =>
      cases hplain : (Mode.plain.after sql.toList).isPlain with
      | true =>
          rw [pieces_append hsemicolon (pieces_semicolon hplain), List.append_nil, filled_cons h]
          simp [Terminable, hsemicolon, hplain]
      | false =>
          rcases exists_pieces ((Mode.plain.after sql.toList).next ';') tail with
            ⟨piece, more, htail⟩
          have hopen : ¬((Mode.plain.after sql.toList).isPlain = true ∧ ';' = ';') := by
            simp [hplain]
          rw [pieces_append hsemicolon (pieces_cons hopen htail), filled_cons (h.append _)]
          constructor
          · intro heq
            have hlength := congrArg List.length (List.cons.inj heq).left
            simp at hlength
          · rintro ⟨⟨-, hend⟩, -⟩
            rw [hplain] at hend
            cases hend

end Filled

theorem statements_eq_iff {script : String} {texts : List String} :
    statements script = texts ↔
      filled (pieces .plain script.toList) = texts.map String.toList := by
  unfold statements
  constructor
  · rintro rfl
    rw [List.map_map]
    simp [Function.comp_def]
  · intro heq
    rw [heq, List.map_map]
    simp [Function.comp_def]

/-- Texts with a semicolon right behind each, on paragraphs of their own, are the statements of
the script exactly if all of them are terminable. -/
theorem statements_join_eq_iff {texts : List String}
    (h : ∀ text ∈ texts, BeginsSolid text.toList) :
    statements (Text.join "\n\n" (texts.map fun text => text ++ ";")) = texts ↔
      ∀ text ∈ texts, Terminable text := by
  rw [statements_eq_iff]
  induction texts with
  | nil => simp [Text.join, pieces, filled, Text.trimStart]
  | cons text rest ih =>
      obtain ⟨htext, hrest⟩ := List.forall_mem_cons.mp h
      have hfirst := filled_pieces_eq_cons_iff htext
      rw [List.forall_mem_cons, List.map_cons, List.map_cons]
      cases rest with
      | nil =>
          have hscript : (Text.join "\n\n" [text ++ ";"]).toList = text.toList ++ [';'] := by
            simp [Text.join]
          rw [List.map_nil, List.map_nil, hscript, hfirst]
          simp [pieces, filled, Text.trimStart]
      | cons second rest =>
          have hblank : ∀ c ∈ "\n\n".toList, Text.isBlank c = true :=
            List.all_eq_true.mp (by decide)
          have hne : (second :: rest).map (fun text => text ++ ";") ≠ [] := List.cons_ne_nil _ _
          have hscript : (Text.join "\n\n"
              ((text ++ ";") :: (second :: rest).map fun text => text ++ ";")).toList =
                text.toList ++ ';' :: ("\n\n".toList ++
                  (Text.join "\n\n" ((second :: rest).map fun text => text ++ ";")).toList) := by
            rw [Text.join_cons_of_ne_nil _ _ hne]
            simp
          rw [hscript, hfirst, filled_pieces_blank hblank (forall_mem_of_all (by decide))]
          exact and_congr_right fun _ => ih hrest

end Sql
end TransformChain
