import TransformChain.Proofs.Template.StatementReading
import TransformChain.Template.Tag

/-!
# Finding printed tags

A tag is found again in the text where it was written: the openers in front of it are no part of
a clean text, and nothing inside it closes it, since delimiters in strings do not count and
white space stands in front of every brace that closes a mapping.
-/

namespace TransformChain
namespace Template

open Text Grammar

/-!
## Lexemes inside tags
-/

def isHarmless (c : Char) : Bool :=
  c != '\'' && c != '"' && c != '\x7d'

/-- The characters of the lexeme are harmless, unless it is a string or a closing brace. -/
def Lexeme.isTame (l : Lexeme) : Bool :=
  l.isSolid &&
    match l with
    | .text _ => true
    | l => l == .symbol "\x7d" || l.chars.all isHarmless

def Tame (ls : List Lexeme) : Prop :=
  ∀ l ∈ ls, l.isTame = true

section Tame

variable {l : Lexeme} {ls ls' : List Lexeme} {name : String}

theorem tame_nil : Tame [] :=
  fun _ h => absurd h List.not_mem_nil

theorem tame_cons : Tame (l :: ls) ↔ l.isTame = true ∧ Tame ls :=
  List.forall_mem_cons

theorem tame_append : Tame (ls ++ ls') ↔ Tame ls ∧ Tame ls' :=
  List.forall_mem_append

theorem tame_commaJoined {items : List (List Lexeme)} (h : ∀ ls ∈ items, Tame ls) :
    Tame (commaJoined items) := by
  cases items with
  | nil => exact tame_nil
  | cons ls others =>
      rw [commaJoined_cons, tame_append]
      refine ⟨h ls List.mem_cons_self, fun l hl => ?_⟩
      rcases List.mem_flatMap.mp hl with ⟨other, hother, hmem⟩
      rcases List.mem_cons.mp hmem with rfl | hmem
      · decide
      · exact h other (List.mem_cons_of_mem ls hother) l hmem

theorem tame_bracketed {first last : Lexeme} (h : Tame ls) (hfirst : first.isTame = true)
    (hlast : last.isTame = true) : Tame (first :: (ls ++ [last])) :=
  tame_cons.mpr ⟨hfirst, tame_append.mpr ⟨h, tame_cons.mpr ⟨hlast, tame_nil⟩⟩⟩

theorem tame_enclosed {need level : Nat} (h : Tame ls) : Tame (enclosed need level ls) := by
  unfold enclosed
  split
  · exact tame_bracketed h (by decide) (by decide)
  · exact h

theorem isTame_of_isHarmless (hsolid : l.isSolid = true)
    (hchars : ∀ c ∈ l.chars, isHarmless c = true) : l.isTame = true := by
  have hall := List.all_eq_true.mpr hchars
  cases l <;> simp [Lexeme.isTame, hsolid, hall]

theorem isTame_cases (h : l.isTame = true) :
    l.isSolid = true ∧ ((∃ content, l = .text content) ∨ l = .symbol "\x7d" ∨
      ∀ c ∈ l.chars, isHarmless c = true) := by
  simp only [Lexeme.isTame, Bool.and_eq_true] at h
  refine ⟨h.left, ?_⟩
  cases l with
  | text content => exact Or.inl ⟨content, rfl⟩
  | word | number | symbol | dotted | opening =>
      have hchars := h.right
      rw [Bool.or_eq_true, List.all_eq_true, beq_iff_eq] at hchars
      exact Or.inr hchars

theorem isHarmless_of_isWordPart {c : Char} (h : isWordPart c = true) : isHarmless c = true := by
  have hne : ∀ d : Char, isWordPart d = false → c ≠ d := by
    rintro d hd rfl
    rw [h] at hd
    cases hd
  simp [isHarmless, hne _ (show isWordPart '\'' = false from rfl),
    hne _ (show isWordPart '"' = false from rfl), hne _ (show isWordPart '\x7d' = false from rfl)]

theorem isHarmless_of_isIdentifier (hname : isIdentifier name = true) :
    ∀ c ∈ name.toList, isHarmless c = true := by
  rcases (isIdentifier_iff name).mp hname with ⟨first, rest, hchars, hstart, hparts⟩
  rw [hchars]
  exact List.forall_mem_cons.mpr ⟨isHarmless_of_isWordPart (isWordPart_of_isWordStart hstart),
    fun c hc => isHarmless_of_isWordPart (hparts c hc)⟩

theorem isTame_word (hname : isIdentifier name = true) : (Lexeme.word name).isTame = true :=
  isTame_of_isHarmless (isSolid_of_isIdentifier hname) (isHarmless_of_isIdentifier hname)

theorem isTame_dotted (hname : isIdentifier name = true) : (Lexeme.dotted name).isTame = true :=
  isTame_of_isHarmless rfl
    (List.forall_mem_cons.mpr ⟨rfl, isHarmless_of_isIdentifier hname⟩)

theorem isTame_opening (hname : isIdentifier name = true) :
    (Lexeme.opening name).isTame = true :=
  isTame_of_isHarmless (isSolid_opening hname)
    (List.forall_mem_append.mpr ⟨isHarmless_of_isIdentifier hname, List.all_eq_true.mp rfl⟩)

theorem isTame_number (value : Nat) : (Lexeme.number value).isTame = true := by
  refine isTame_of_isHarmless (isSolid_number value) fun c hc => isHarmless_of_isWordPart ?_
  have hdigit : c.isDigit = true := Nat.isDigit_of_mem_toDigits (by decide) (by decide) hc
  unfold isWordPart Char.isAlphanum
  rw [hdigit, Bool.or_true, Bool.true_or]

theorem tame_literal (value : Value) : Tame (literalLexemes value) := by
  cases value with
  | bool b => cases b <;> exact tame_cons.mpr ⟨by decide, tame_nil⟩
  | null => exact tame_cons.mpr ⟨by decide, tame_nil⟩
  | int i => exact tame_cons.mpr ⟨isTame_number _, tame_nil⟩
  | str s => exact tame_cons.mpr ⟨rfl, tame_nil⟩
  | float x => exact tame_nil
  | list items => exact tame_nil
  | map entries => exact tame_nil

theorem tame_operator (op : BinaryOp) : Tame op.lexemes := by
  unfold Tame
  cases op <;> decide

theorem isTame_variable (hname : isVariableName name = true) :
    (Lexeme.word name).isTame = true := by
  simp only [isVariableName, Bool.and_eq_true] at hname
  exact isTame_word hname.left

end Tame

mutual

theorem tame_bare : ∀ e : Expr, e.isWritable = true → Tame e.bare
  | .lit value, _ => tame_literal value
  | .var name, he => tame_cons.mpr ⟨isTame_variable he, tame_nil⟩
  | .list items, he =>
      tame_bracketed (tame_commaJoined (tame_items items he)) (by decide) (by decide)
  | .dict entries, he =>
      tame_bracketed (tame_commaJoined (tame_entries entries he)) (by decide) (by decide)
  | .attr base name, he => by
      simp only [Expr.isWritable, Bool.and_eq_true] at he
      exact tame_append.mpr ⟨tame_enclosed (tame_bare base he.left),
        tame_cons.mpr ⟨isTame_dotted he.right, tame_nil⟩⟩
  | .index base key, he => by
      simp only [Expr.isWritable, Bool.and_eq_true] at he
      exact tame_append.mpr ⟨tame_enclosed (tame_bare base he.left),
        tame_bracketed (tame_bare key he.right) (by decide) (by decide)⟩
  | .call callee args keywords, he => by
      simp only [Expr.isWritable, Bool.and_eq_true] at he
      have hargs := List.forall_mem_append.mpr
        ⟨tame_items args he.left.right, tame_named keywords he.right⟩
      exact tame_append.mpr ⟨tame_enclosed (tame_bare callee he.left.left),
        tame_bracketed (tame_commaJoined hargs) (by decide) (by decide)⟩
  | .filter value name args, he => by
      simp only [Expr.isWritable, Bool.and_eq_true] at he
      have hvalue : Tame (enclosed 9 value.level value.bare) :=
        tame_enclosed (tame_bare value he.left.left)
      have hargs := tame_commaJoined (tame_items args he.right)
      cases args with
      | nil =>
          exact tame_append.mpr ⟨hvalue, tame_cons.mpr
            ⟨by decide, tame_cons.mpr ⟨isTame_word he.left.right, tame_nil⟩⟩⟩
      | cons arg args =>
          exact tame_append.mpr ⟨hvalue, tame_cons.mpr ⟨by decide,
            tame_bracketed hargs (isTame_opening he.left.right) (by decide)⟩⟩
  | .test value name negated, he => by
      simp only [Expr.isWritable, Bool.and_eq_true] at he
      have hname := tame_cons.mpr ⟨isTame_word he.left.right, tame_nil⟩
      have hnegation : Tame (if negated then [Lexeme.word "not"] else []) := by
        unfold Tame
        cases negated <;> decide
      exact tame_append.mpr ⟨tame_enclosed (tame_bare value he.left.left),
        tame_cons.mpr ⟨by decide, tame_append.mpr ⟨hnegation, hname⟩⟩⟩
  | .not operand, he => by
      have hoperand : operand.isWritable = true := he
      exact tame_cons.mpr ⟨by decide, tame_enclosed (tame_bare operand hoperand)⟩
  | .neg operand, he => by
      have hoperand : operand.isWritable = true := he
      exact tame_cons.mpr ⟨by decide, tame_enclosed (tame_bare operand hoperand)⟩
  | .binary op left right, he => by
      simp only [Expr.isWritable, Bool.and_eq_true] at he
      exact tame_append.mpr ⟨tame_enclosed (tame_bare left he.left),
        tame_append.mpr ⟨tame_operator op, tame_enclosed (tame_bare right he.right)⟩⟩
  | .cond condition yes none, he => by
      simp only [Expr.isWritable, Bool.and_eq_true] at he
      exact tame_append.mpr ⟨tame_enclosed (tame_bare yes he.right),
        tame_cons.mpr ⟨by decide, tame_enclosed (tame_bare condition he.left)⟩⟩
  | .cond condition yes (some no), he => by
      simp only [Expr.isWritable, Bool.and_eq_true] at he
      exact tame_append.mpr ⟨tame_enclosed (tame_bare yes he.left.right), tame_cons.mpr
        ⟨by decide, tame_append.mpr ⟨tame_enclosed (tame_bare condition he.left.left),
          tame_cons.mpr ⟨by decide, tame_bare no he.right⟩⟩⟩⟩

theorem tame_items : ∀ items : List Expr, areWritable items = true →
    ∀ ls ∈ itemsLexemes items, Tame ls
  | [], _ => fun _ h => absurd h List.not_mem_nil
  | item :: rest, h => by
      simp only [areWritable, Bool.and_eq_true] at h
      exact List.forall_mem_cons.mpr ⟨tame_bare item h.left, tame_items rest h.right⟩

theorem tame_entries : ∀ entries : List (Expr × Expr), entriesAreWritable entries = true →
    ∀ ls ∈ entriesLexemes entries, Tame ls
  | [], _ => fun _ h => absurd h List.not_mem_nil
  | (key, value) :: rest, h => by
      simp only [entriesAreWritable, Bool.and_eq_true] at h
      exact List.forall_mem_cons.mpr
        ⟨tame_append.mpr ⟨tame_bare key h.left.left,
          tame_cons.mpr ⟨by decide, tame_bare value h.left.right⟩⟩, tame_entries rest h.right⟩

theorem tame_named : ∀ keywords : List (String × Expr), namedAreWritable keywords = true →
    ∀ ls ∈ namedLexemes keywords, Tame ls
  | [], _ => fun _ h => absurd h List.not_mem_nil
  | (name, value) :: rest, h => by
      simp only [namedAreWritable, Bool.and_eq_true] at h
      exact List.forall_mem_cons.mpr
        ⟨tame_cons.mpr ⟨isTame_variable h.left.left,
          tame_cons.mpr ⟨by decide, tame_bare value h.left.right⟩⟩, tame_named rest h.right⟩

end

theorem tame_parameter {parameter : MacroParameter} (h : parameterIsWritable parameter = true) :
    Tame (parameterLexemes parameter) := by
  rcases parameter with ⟨name, default⟩
  simp only [parameterIsWritable, Bool.and_eq_true] at h
  cases default with
  | none => exact tame_cons.mpr ⟨isTame_variable h.left, tame_nil⟩
  | some default =>
      exact tame_cons.mpr ⟨isTame_variable h.left,
        tame_cons.mpr ⟨by decide, tame_bare default h.right⟩⟩

theorem tame_target {target : LoopTarget} (h : target.names.all isVariableName = true) :
    Tame target.lexemes := by
  cases target with
  | single name =>
      have hname : isVariableName name = true := by simpa [LoopTarget.names] using h
      exact tame_cons.mpr ⟨isTame_variable hname, tame_nil⟩
  | pair first second =>
      obtain ⟨hfirst, hsecond⟩ : isVariableName first = true ∧ isVariableName second = true := by
        simpa [LoopTarget.names] using h
      exact tame_cons.mpr ⟨isTame_variable hfirst, tame_cons.mpr
        ⟨by decide, tame_cons.mpr ⟨isTame_variable hsecond, tame_nil⟩⟩⟩

theorem tame_statement {s : Statement} (h : s.isWritable = true) : Tame s.lexemes := by
  cases s with
  | ifStart condition => exact tame_cons.mpr ⟨by decide, tame_bare condition h⟩
  | elifStart condition => exact tame_cons.mpr ⟨by decide, tame_bare condition h⟩
  | forStart target iterable =>
      simp only [Statement.isWritable, Bool.and_eq_true] at h
      exact tame_cons.mpr ⟨by decide, tame_append.mpr
        ⟨tame_target h.left, tame_cons.mpr ⟨by decide, tame_bare iterable h.right⟩⟩⟩
  | assign name value =>
      simp only [Statement.isWritable, Bool.and_eq_true] at h
      exact tame_cons.mpr ⟨by decide, tame_cons.mpr
        ⟨isTame_variable h.left, tame_cons.mpr ⟨by decide, tame_bare value h.right⟩⟩⟩
  | run expr => exact tame_cons.mpr ⟨by decide, tame_bare expr h⟩
  | macroStart name params =>
      simp only [Statement.isWritable, Bool.and_eq_true] at h
      have hparams : ∀ ls ∈ params.map parameterLexemes, Tame ls := by
        intro ls hls
        rcases List.mem_map.mp hls with ⟨parameter, hmem, rfl⟩
        exact tame_parameter (List.all_eq_true.mp h.right parameter hmem)
      exact tame_cons.mpr ⟨by decide, tame_cons.mpr ⟨isTame_variable h.left,
        tame_bracketed (tame_commaJoined hparams) (by decide) (by decide)⟩⟩
  | elseStart | ifEnd | forEnd | macroEnd => exact tame_cons.mpr ⟨by decide, tame_nil⟩

/-!
## The end of a tag
-/

/-- The character begins a string in tags of the kind.  Comments have no strings. -/
def TagKind.Opens (kind : TagKind) (c : Char) : Prop :=
  kind ≠ .comment ∧ (c = '\'' ∨ c = '"')

def prepend (front : List Char) (found : List Char × List Char) : List Char × List Char :=
  (front ++ found.1, found.2)

section Steps

variable {kind : TagKind} {c : Char} {rest : List Char}

theorem closeTag_hidden (kind : TagKind) (quote c : Char) (rest : List Char) :
    closeTag kind (some quote) ('\\' :: c :: rest) =
      (closeTag kind (some quote) rest).map (prepend ['\\', c]) := by
  rw [closeTag, if_pos rfl]
  cases closeTag kind (some quote) rest <;> rfl

theorem closeTag_inside {quote : Char} (hc : c ≠ '\\') (hrest : rest ≠ []) :
    closeTag kind (some quote) (c :: rest) =
      (closeTag kind (if c = quote then none else some quote) rest).map (prepend [c]) := by
  cases rest with
  | nil => exact absurd rfl hrest
  | cons d rest =>
      rw [closeTag, if_neg hc]
      cases closeTag kind (if c = quote then none else some quote) (d :: rest) <;> rfl

theorem closeTag_opening (hc : kind.Opens c) (hrest : rest ≠ []) :
    closeTag kind none (c :: rest) = (closeTag kind (some c) rest).map (prepend [c]) := by
  cases rest with
  | nil => exact absurd rfl hrest
  | cons d rest =>
      unfold TagKind.Opens at hc
      rw [closeTag, if_pos hc]
      cases closeTag kind (some c) (d :: rest) <;> rfl

theorem closeTag_plain (hc : ¬kind.Opens c)
    (hend : ¬(c = kind.closer ∧ rest.head? = some '\x7d')) (hrest : rest ≠ []) :
    closeTag kind none (c :: rest) = (closeTag kind none rest).map (prepend [c]) := by
  cases rest with
  | nil => exact absurd rfl hrest
  | cons d rest =>
      have hne : ¬(c = kind.closer ∧ d = '\x7d') := by
        rintro ⟨hcloser, rfl⟩
        exact hend ⟨hcloser, rfl⟩
      unfold TagKind.Opens at hc
      rw [closeTag, if_neg hc, if_neg hne]
      cases closeTag kind none (d :: rest) <;> rfl

theorem closeTag_closer (kind : TagKind) (rest : List Char) :
    closeTag kind none (kind.closer :: '\x7d' :: rest) = some ([], rest) := by
  cases kind <;> rfl

end Steps

def Skips (kind : TagKind) (front mid : List Char) : Prop :=
  closeTag kind none (front ++ mid) = (closeTag kind none mid).map (prepend front)

section Closing

variable {kind : TagKind} {c : Char} {front front' mid rest : List Char}

theorem skips_nil : Skips kind [] mid := by
  unfold Skips
  rw [List.nil_append]
  cases closeTag kind none mid <;> rfl

theorem Skips.append (h : Skips kind front (front' ++ mid)) (h' : Skips kind front' mid) :
    Skips kind (front ++ front') mid := by
  unfold Skips at h h' ⊢
  rw [List.append_assoc, h, h', Option.map_map]
  congr 1
  funext found
  simp [prepend]

theorem skips_singleton (hquote : c ≠ '\'' ∧ c ≠ '"') (hmid : mid ≠ [])
    (hclose : c ≠ kind.closer ∨ mid.head? ≠ some '\x7d') : Skips kind [c] mid := by
  have hopens : ¬kind.Opens c := fun h => h.right.elim hquote.left hquote.right
  have hend : ¬(c = kind.closer ∧ mid.head? = some '\x7d') :=
    fun h => hclose.elim (fun hc => hc h.left) fun hhead => hhead h.right
  exact closeTag_plain hopens hend hmid

theorem skips_gap (hfront : ∀ c ∈ front, isGap c = true) (hmid : mid ≠ []) :
    Skips kind front mid := by
  induction front with
  | nil => exact skips_nil
  | cons c front ih =>
      have hgap : isGap c = true := hfront c List.mem_cons_self
      have hne : ∀ d : Char, isGap d = false → c ≠ d := by
        rintro d hd rfl
        rw [hgap] at hd
        cases hd
      have hclose : c ≠ kind.closer := by cases kind <;> exact hne _ rfl
      have hfirst : Skips kind [c] (front ++ mid) :=
        skips_singleton ⟨hne _ rfl, hne _ rfl⟩ (List.append_ne_nil_of_right_ne_nil front hmid)
          (Or.inl hclose)
      exact hfirst.append (ih fun d hd => hfront d (List.mem_cons_of_mem c hd))

theorem skips_harmless (hfront : ∀ c ∈ front, isHarmless c = true) (hmid : mid ≠ [])
    (hhead : mid.head? ≠ some '\x7d') : Skips kind front mid := by
  induction front with
  | nil => exact skips_nil
  | cons c front ih =>
      have hrest := fun d hd => hfront d (List.mem_cons_of_mem c hd)
      have hc := hfront c List.mem_cons_self
      simp only [isHarmless, Bool.and_eq_true, bne_iff_ne] at hc
      have hnext : (front ++ mid).head? ≠ some '\x7d' := by
        cases front with
        | nil => exact hhead
        | cons d front =>
            intro heq
            cases heq
            exact absurd (hrest '\x7d' List.mem_cons_self) (by decide)
      have hfirst : Skips kind [c] (front ++ mid) :=
        skips_singleton hc.left (List.append_ne_nil_of_right_ne_nil front hmid) (Or.inr hnext)
      exact hfirst.append (ih hrest)

theorem closeTag_escape (content : List Char) (hmid : mid ≠ []) :
    closeTag kind (some '\'') (content.flatMap Lexeme.escape ++ '\'' :: mid) =
      (closeTag kind none mid).map (prepend (content.flatMap Lexeme.escape ++ ['\''])) := by
  induction content with
  | nil =>
      rw [List.flatMap_nil, List.nil_append, closeTag_inside (by decide) hmid, if_pos rfl]
      rfl
  | cons c content ih =>
      rw [List.flatMap_cons, List.append_assoc, List.append_assoc]
      by_cases hspecial : c = '\\' ∨ c = '\''
      · rw [Lexeme.escape, if_pos hspecial, List.cons_append, List.cons_append, List.nil_append,
          closeTag_hidden, ih]
        cases closeTag kind none mid <;> simp [prepend]
      · have hne := not_or.mp hspecial
        have hrest : content.flatMap Lexeme.escape ++ '\'' :: mid ≠ [] :=
          List.append_ne_nil_of_right_ne_nil _ (List.cons_ne_nil _ _)
        rw [Lexeme.escape, if_neg hspecial, List.singleton_append, closeTag_inside hne.left hrest,
          if_neg hne.right, ih]
        cases closeTag kind none mid <;> simp [prepend]

theorem skips_string (content : String) (hkind : kind ≠ .comment) (hmid : mid ≠ []) :
    Skips kind (Lexeme.text content).chars mid := by
  have hchars : (Lexeme.text content).chars ++ mid
      = '\'' :: (content.toList.flatMap Lexeme.escape ++ '\'' :: mid) := by
    simp [Lexeme.chars]
  have hrest : content.toList.flatMap Lexeme.escape ++ '\'' :: mid ≠ [] :=
    List.append_ne_nil_of_right_ne_nil _ (List.cons_ne_nil _ _)
  unfold Skips
  rw [hchars, closeTag_opening ⟨hkind, Or.inl rfl⟩ hrest, closeTag_escape content.toList hmid]
  cases closeTag kind none mid <;> simp [prepend, Lexeme.chars]

theorem skips_lexeme {l : Lexeme} (hl : l.isTame = true) (hkind : kind ≠ .comment)
    (hmid : mid ≠ []) (hhead : mid.head? ≠ some '\x7d') : Skips kind l.chars mid := by
  rcases (isTame_cases hl).right with ⟨content, rfl⟩ | rfl | hharmless
  · exact skips_string content hkind hmid
  · exact skips_singleton (by decide) hmid (Or.inr hhead)
  · exact skips_harmless hharmless hmid hhead

theorem ne_brace_of_isGap (hc : isGap c = true) : c ≠ '\x7d' := by
  rintro rfl
  cases hc

theorem first_of_isTame {l : Lexeme} (hl : l.isTame = true) (hbrace : l ≠ .symbol "\x7d") :
    ∃ c more, l.chars = c :: more ∧ c ≠ '\x7d' := by
  obtain ⟨hsolid, hkind⟩ := isTame_cases hl
  rcases hkind with ⟨content, rfl⟩ | rfl | hharmless
  · exact ⟨'\'', _, rfl, by decide⟩
  · exact absurd rfl hbrace
  · cases hchars : l.chars with
    | nil => simp [Lexeme.isSolid, hchars] at hsolid
    | cons c more =>
        refine ⟨c, more, rfl, ?_⟩
        rintro rfl
        rw [hchars] at hharmless
        exact absurd (hharmless '\x7d' List.mem_cons_self) (by decide)

/-- Behind each lexeme something follows that is no closing brace. -/
theorem first_of_spellsApart {ls : List Lexeme} (h : SpellsApart ls mid rest) (htame : Tame ls)
    (hrest : rest.head?.any isGap = true) : ∃ c more, mid = c :: more ∧ c ≠ '\x7d' := by
  cases h with
  | nil =>
      cases mid with
      | nil => cases hrest
      | cons c more => exact ⟨c, more, rfl, ne_brace_of_isGap hrest⟩
  | @cons l ls space mid _ hspace happart hends hmid =>
      cases space with
      | cons c space =>
          exact ⟨c, _, rfl, ne_brace_of_isGap (hspace c List.mem_cons_self)⟩
      | nil =>
          have hbrace : l ≠ .symbol "\x7d" := fun heq => happart heq rfl
          rcases first_of_isTame (tame_cons.mp htame).left hbrace with ⟨c, more, hchars, hc⟩
          refine ⟨c, more ++ mid, ?_, hc⟩
          rw [List.nil_append, hchars, List.cons_append]

theorem skips_spelled {ls : List Lexeme} {cs : List Char} (hkind : kind ≠ .comment)
    (h : SpellsApart ls cs rest) (htame : Tame ls) (hrest : rest.head?.any isGap = true)
    (tail : List Char) : ∃ front, cs = front ++ rest ∧ Skips kind front (rest ++ tail) := by
  induction h with
  | nil => exact ⟨[], rfl, skips_nil⟩
  | @cons l ls space mid rest hspace _ _ hmid ih =>
      obtain ⟨hl, hls⟩ := tame_cons.mp htame
      rcases first_of_spellsApart hmid hls hrest with ⟨c, more, hfirst, hc⟩
      rcases ih hls hrest with ⟨front, hfront, hskips⟩
      have hnext : front ++ (rest ++ tail) = c :: (more ++ tail) := by
        rw [← List.append_assoc, ← hfront, hfirst, List.cons_append]
      have hhead : (front ++ (rest ++ tail)).head? ≠ some '\x7d' := by
        rw [hnext]
        intro heq
        cases heq
        exact hc rfl
      have hne : front ++ (rest ++ tail) ≠ [] := by
        rw [hnext]
        exact List.cons_ne_nil _ _
      have hlexeme : Skips kind l.chars (front ++ (rest ++ tail)) :=
        skips_lexeme hl hkind hne hhead
      have hgap : Skips kind space ((l.chars ++ front) ++ (rest ++ tail)) := by
        refine skips_gap hspace ?_
        rw [List.append_assoc]
        exact List.append_ne_nil_of_right_ne_nil _ hne
      refine ⟨space ++ (l.chars ++ front), ?_, hgap.append (hlexeme.append hskips)⟩
      rw [hfront, List.append_assoc, List.append_assoc]

end Closing

/-!
## Tags
-/

/-- The content of a tag: the lexemes apart from each other and from the delimiters. -/
structure WritesTag (ls : List Lexeme) (content : List Char) : Prop where
  begins : content.head?.any isGap = true
  ends : ∃ space, space.head?.any isGap = true ∧ (∀ c ∈ space, isGap c = true) ∧
    SpellsApart ls content space

def TagKind.tagText (kind : TagKind) (content : List Char) : List Char :=
  '\x7b' :: kind.opener :: (content ++ [kind.closer, '\x7d'])

theorem writesTag_spread (ls : List Lexeme) : WritesTag ls (spread ls ++ [' ']) := by
  constructor
  · cases ls <;> rfl
  · exact ⟨[' '], rfl, List.all_eq_true.mp rfl, spellsApart_spread ls (by simp [isGap])⟩

section Tags

variable {kind : TagKind} {ls : List Lexeme} {content : List Char}

theorem WritesTag.closeTag_eq (h : WritesTag ls content) (hkind : kind ≠ .comment)
    (htame : Tame ls) (after : List Char) :
    closeTag kind none (content ++ kind.closer :: '\x7d' :: after) = some (content, after) := by
  rcases h.ends with ⟨space, hhead, hspace, hspells⟩
  rcases skips_spelled hkind hspells htame hhead (kind.closer :: '\x7d' :: after) with
    ⟨front, rfl, hskips⟩
  have hgap : Skips kind space (kind.closer :: '\x7d' :: after) :=
    skips_gap hspace (List.cons_ne_nil _ _)
  rw [hskips.append hgap, closeTag_closer]
  simp [prepend]

theorem WritesTag.getLast?_ne (h : WritesTag ls content) : content.getLast? ≠ some '-' := by
  rcases h.ends with ⟨space, hhead, hspace, hspells⟩
  rcases hspells.spells.suffix with ⟨front, rfl⟩
  intro heq
  cases space with
  | nil => cases hhead
  | cons c space =>
      rw [List.getLast?_append_of_ne_nil _ (List.cons_ne_nil c space)] at heq
      exact absurd (hspace '-' (List.mem_of_getLast? heq)) (by decide)

theorem WritesTag.readTag_eq (h : WritesTag ls content) (hkind : kind ≠ .comment)
    (htame : Tame ls) (after : List Char) :
    readTag kind (content ++ kind.closer :: '\x7d' :: after)
      = some (⟨kind, content, false, false⟩, after) := by
  have hdash : takeDash (content ++ kind.closer :: '\x7d' :: after)
      = (false, content ++ kind.closer :: '\x7d' :: after) := by
    have hbegins := h.begins
    cases content with
    | nil => cases hbegins
    | cons c content =>
        unfold takeDash
        split
        case h_1 heq =>
          cases heq
          cases hbegins
        case h_2 => rfl
  unfold readTag
  rw [hdash]
  simp only [h.closeTag_eq hkind htame after, Tag.ofRaw, if_neg h.getLast?_ne]

end Tags

/-!
## Text between tags
-/

def isCleanText (cs : List Char) : Bool :=
  !cs.isEmpty && cs.getLast? != some '\x7b' &&
    [TagKind.output, .block, .comment].all fun kind => !containsPart ['\x7b', kind.opener] cs

section Texts

variable {cs rest : List Char} {c d : Char}

theorem breakAtTag_cons (hc : c ≠ '\x7b') :
    breakAtTag (c :: rest) = (c :: (breakAtTag rest).1, (breakAtTag rest).2) := by
  cases rest with
  | nil => rfl
  | cons d rest => rw [breakAtTag, if_neg (fun h => hc h.left)]

theorem TagKind.ofOpener?_opener (kind : TagKind) : TagKind.ofOpener? kind.opener = some kind := by
  cases kind <;> rfl

theorem breakAtTag_opener (kind : TagKind) (rest : List Char) :
    breakAtTag ('\x7b' :: kind.opener :: rest) = ([], '\x7b' :: kind.opener :: rest) := by
  cases kind <;> rfl

theorem breakAtTag_tagText (kind : TagKind) (content rest : List Char) :
    breakAtTag (kind.tagText content ++ rest) = ([], kind.tagText content ++ rest) :=
  breakAtTag_opener kind _

theorem ofOpener?_eq_none (h : ∀ kind : TagKind, d ≠ kind.opener) : TagKind.ofOpener? d = none := by
  have houtput : d ≠ '\x7b' := h .output
  have hblock : d ≠ '%' := h .block
  have hcomment : d ≠ '#' := h .comment
  unfold TagKind.ofOpener?
  rw [if_neg houtput, if_neg hblock, if_neg hcomment]

theorem breakAtTag_append
    (hopeners : ∀ kind : TagKind, containsPart ['\x7b', kind.opener] cs = false)
    (hlast : cs.getLast? ≠ some '\x7b') :
    breakAtTag (cs ++ rest) = (cs ++ (breakAtTag rest).1, (breakAtTag rest).2) := by
  induction cs with
  | nil => rfl
  | cons c cs ih =>
      cases cs with
      | nil => exact breakAtTag_cons fun hc => hlast (by rw [hc]; rfl)
      | cons d cs =>
          have htail : ∀ kind : TagKind,
              startsWith ['\x7b', kind.opener] (c :: d :: cs) = false ∧
                containsPart ['\x7b', kind.opener] (d :: cs) = false := fun kind =>
            Bool.or_eq_false_iff.mp (hopeners kind)
          have hrest := ih (fun kind => (htail kind).right) (by simpa using hlast)
          have hopener : ¬(c = '\x7b' ∧ (TagKind.ofOpener? d).isSome) := by
            rintro ⟨rfl, hd⟩
            have hne : ∀ kind : TagKind, d ≠ kind.opener := by
              rintro kind rfl
              have hstart := (htail kind).left
              simp [startsWith, afterStart?] at hstart
            rw [ofOpener?_eq_none hne] at hd
            cases hd
          rw [List.cons_append] at hrest
          rw [List.cons_append, List.cons_append, breakAtTag, if_neg hopener, hrest]
          rfl

theorem breakAtTag_clean (h : isCleanText cs = true) :
    breakAtTag (cs ++ rest) = (cs ++ (breakAtTag rest).1, (breakAtTag rest).2) := by
  simp only [isCleanText, List.all_cons, List.all_nil, Bool.and_true, Bool.and_eq_true,
    Bool.not_eq_true', bne_iff_ne] at h
  refine breakAtTag_append (fun kind => ?_) h.left.right
  cases kind with
  | output => exact h.right.left
  | block => exact h.right.right.left
  | comment => exact h.right.right.right

end Texts

end Template
end TransformChain
