import TransformChain.Proofs.Yaml.PlainScalars

/-!
# Quoted scalars

What the reader of scalars makes of a text in quotes, of either kind.  The characters between the
quotes come in runs without white space, in spaces and in line breaks, and each of the three is
read by a loop of its own.
-/

namespace TransformChain
namespace Yaml

/-!
## Parts of a quoted scalar
-/

def quoteMark (single : Bool) : Char :=
  if single then '\'' else '"'

/-- The characters stand for one character inside quotes, whatever comes behind them. -/
structure StandsFor (single : Bool) (written : List Char) (c : Char) : Prop where
  starts : ∃ first others, written = first :: others ∧ isBlankOrBreak first = false
  reads : ∀ (b : Nat) (text tail : List Char) (i l k : Nat),
    readQuotedRun single (b + 1) text ⟨written ++ tail, i, l, k⟩ =
      readQuotedRun single b (text ++ [c]) ⟨tail, i + written.length, l, k + written.length⟩

def quotedBehind (single : Bool) (b : Nat) (content : List Char) :
    Option (Spacing × Cursor) → Option (List Char × Cursor)
  | none => none
  | some (spacing, cursor) => readQuotedParts single b (content ++ spacing.folded) cursor

def quotedOn (single : Bool) (b : Nat) :
    Option (List Char × QuotedEnd × Cursor) → Option (List Char × Cursor)
  | none => none
  | some (content, .closed, after) => some (content, after)
  | some (content, .blank, after) =>
      quotedBehind single b content
        (readSpacing none (after.rest.length + 1) Spacing.none after)
  | some (content, .joined, after) =>
      quotedBehind single b content
        (readSpacing none (after.rest.length + 1) { Spacing.none with crossed := true } after)

theorem readQuotedParts_of_pos {single : Bool} {b i l k : Nat} {text : List Char} {c : Char}
    {rest : List Char} (hk : 0 < k) :
    readQuotedParts single (b + 1) text ⟨c :: rest, i, l, k⟩ =
      quotedOn single b (readQuotedRun single ((c :: rest).length + 1) text ⟨c :: rest, i, l, k⟩) := by
  rw [readQuotedParts]
  simp only [atMarker_of_pos hk, List.isEmpty_cons, Bool.or_self, Bool.false_eq_true, if_false]
  cases readQuotedRun single ((c :: rest).length + 1) text ⟨c :: rest, i, l, k⟩ with
  | none => rfl
  | some result =>
      rcases result with ⟨content, ending, after⟩
      cases ending with
      | closed => rfl
      | blank =>
          simp only [quotedOn]
          cases readSpacing none (after.rest.length + 1) Spacing.none after <;> rfl
      | joined =>
          simp only [quotedOn]
          cases readSpacing none (after.rest.length + 1) { Spacing.none with crossed := true }
            after <;> rfl

theorem readQuotedRun_close {single : Bool} {b i l k : Nat} {text rest : List Char}
    (hrest : rest.head? ≠ some '\'') :
    readQuotedRun single (b + 1) text ⟨quoteMark single :: rest, i, l, k⟩ =
      some (text, .closed, ⟨rest, i + 1, l, k + 1⟩) := by
  have hsingle : (isSpace '\'' || isBreak '\'') = false := by decide
  have hdouble : (isSpace '"' || isBreak '"') = false := by decide
  have hnext : (rest.head? == some '\'') = false := beq_eq_false_iff_ne.mpr hrest
  cases single with
  | false =>
      simp only [quoteMark, readQuotedRun, hdouble, Bool.false_eq_true, if_false,
        beq_self_eq_true, if_true, Cursor.skip_eq, List.drop_succ_cons, List.drop_zero]
  | true =>
      simp only [quoteMark, readQuotedRun, hsingle, hnext, Bool.false_eq_true, if_false,
        beq_self_eq_true, if_true, Cursor.skip_eq, List.drop_succ_cons, List.drop_zero]

theorem readQuotedRun_stop {single : Bool} {b i l k : Nat} {text rest : List Char} {c : Char}
    (hc : isBlankOrBreak c = true) :
    readQuotedRun single (b + 1) text ⟨c :: rest, i, l, k⟩ =
      some (text, .blank, ⟨c :: rest, i, l, k⟩) := by
  have hblank : (isSpace c || isBreak c) = true := hc
  simp only [readQuotedRun, hblank, if_true]

/-!
## Texts between quotes
-/

/-- The characters between the quotes: those that are raw begin a new line of their own, on which
the margin stands unless it is empty. -/
def quotedLines (written : Char → List Char) (raw : Char → Bool) (m : Nat) : Bool → List Char → List Char
  | below, [] => if below then margin m else []
  | below, c :: cs =>
      if raw c then c :: quotedLines written raw m true cs
      else (if below then margin m else []) ++ written c ++ quotedLines written raw m false cs

/-- The text can be read back from between quotes. -/
structure IsQuotedText (single : Bool) (written : Char → List Char) (raw : Char → Bool)
    (cs : List Char) : Prop where
  breaks : ∀ c ∈ cs, raw c = true → isBreak c = true ∧ isPrintable c = true ∧ c ≠ '\n'
  stands : ∀ c ∈ cs, raw c = false → c ≠ ' ' → StandsFor single (written c) c
  space : written ' ' = [' '] ∧ raw ' ' = false
  spaceBreak : hasPair isBlankSpace raw cs = false
  breakSpace : hasPair raw isBlankSpace cs = false

namespace IsQuotedText

variable {single : Bool} {written : Char → List Char} {raw : Char → Bool} {c : Char} {cs : List Char}

theorem tail (h : IsQuotedText single written raw (c :: cs)) :
    IsQuotedText single written raw cs := by
  have hpairs {first second : Char → Bool} (hpair : hasPair first second (c :: cs) = false) :
      hasPair first second cs = false := by
    cases cs with
    | nil => rfl
    | cons d cs =>
        rw [hasPair, Bool.or_eq_false_iff] at hpair
        exact hpair.right
  exact ⟨fun d hmem => h.breaks d (List.mem_cons_of_mem c hmem),
    fun d hmem => h.stands d (List.mem_cons_of_mem c hmem), h.space,
    hpairs h.spaceBreak, hpairs h.breakSpace⟩

theorem head?_of_space (h : IsQuotedText single written raw (' ' :: cs)) :
    cs.head?.any raw = false := by
  cases cs with
  | nil => rfl
  | cons d cs =>
      have hpair := h.spaceBreak
      rw [hasPair, Bool.or_eq_false_iff] at hpair
      exact hpair.left

theorem head?_of_raw (h : IsQuotedText single written raw (c :: cs)) (hc : raw c = true) :
    cs.head? ≠ some ' ' := by
  cases cs with
  | nil => exact fun h => nomatch h
  | cons d cs =>
      have hpair := h.breakSpace
      rw [hasPair, Bool.or_eq_false_iff, hc, Bool.true_and] at hpair
      intro hd
      rw [Option.some.inj hd] at hpair
      cases hpair.left

end IsQuotedText

/-- The reader gives the text and stops in front of the rest. -/
def ReadsTo (result : Option (List Char × Cursor)) (text rest : List Char) : Prop :=
  ∃ i l k, result = some (text, ⟨rest, i, l, k⟩)

section QuotedParts

variable {single : Bool} {written : Char → List Char} {raw : Char → Bool} {m : Nat}
  {rest cs : List Char} {c : Char}

/-- In a run without white space. -/
def ReadsRun (single : Bool) (written : Char → List Char) (raw : Char → Bool) (m : Nat)
    (rest cs : List Char) : Prop :=
  ∀ (text : List Char) (b more i l k : Nat), 0 < k →
    (quotedLines written raw m false cs).length < b →
    ReadsTo (quotedOn single b (readQuotedRun single
        ((quotedLines written raw m false cs).length + 1 + more) text
        ⟨quotedLines written raw m false cs ++ quoteMark single :: rest, i, l, k⟩))
      (text ++ cs) rest

/-- In white space on one line, in front of no line break. -/
def ReadsSpaces (single : Bool) (written : Char → List Char) (raw : Char → Bool) (m : Nat)
    (rest cs : List Char) : Prop :=
  ∀ (text blanks : List Char) (b more i l k : Nat), 0 < k → cs.head?.any raw = false →
    (quotedLines written raw m false cs).length + 1 < b →
    ReadsTo (quotedBehind single b text (readSpacing none
        ((quotedLines written raw m false cs).length + 1 + more) ⟨blanks, [], [], false⟩
        ⟨quotedLines written raw m false cs ++ quoteMark single :: rest, i, l, k⟩))
      (text ++ blanks ++ cs) rest

/-- At the beginning of a line, in front of no space of the text. -/
def ReadsBelow (single : Bool) (written : Char → List Char) (raw : Char → Bool) (m : Nat)
    (rest cs : List Char) : Prop :=
  ∀ (text others : List Char) (first : Char) (b more i l k : Nat), first ≠ '\n' →
    cs.head? ≠ some ' ' → (quotedLines written raw m true cs).length + 1 < b →
    ReadsTo (quotedBehind single b text (readSpacing none
        ((quotedLines written raw m true cs).length + 1 + more) ⟨[], [first], others, true⟩
        ⟨quotedLines written raw m true cs ++ quoteMark single :: rest, i, l, k⟩))
      (text ++ first :: others ++ cs) rest

theorem startsSolid_quoteMark : StartsSolid (quoteMark single :: rest) := by
  cases single with
  | false => exact (by decide : isBlankOrBreak '"' = false)
  | true => exact (by decide : isBlankOrBreak '\'' = false)

theorem readsRun_nil (hrest : rest.head? ≠ some '\'') :
    ReadsRun single written raw m rest [] := by
  intro text b more i l k hk hb
  have hlength : (quotedLines written raw m false []).length + 1 + more = more + 1 := by
    rw [Nat.add_comm more 1]
    rfl
  rw [hlength, List.append_nil, quotedLines, if_neg Bool.false_ne_true, List.nil_append,
    readQuotedRun_close hrest]
  exact ⟨_, _, _, rfl⟩

/-- White space ends in front of what is no white space, and the next run begins there. -/
theorem ReadsRun.behind (hrun : ReadsRun single written raw m rest cs)
    (hstart : StartsSolid (quotedLines written raw m false cs ++ quoteMark single :: rest))
    {text : List Char} {spacing : Spacing} {b more i l k : Nat} (hk : 0 < k)
    (hb : (quotedLines written raw m false cs).length + 1 < b) :
    ReadsTo (quotedBehind single b text (readSpacing none (more + 1) spacing
        ⟨quotedLines written raw m false cs ++ quoteMark single :: rest, i, l, k⟩))
      (text ++ spacing.folded ++ cs) rest := by
  cases b with
  | zero => cases hb
  | succ b =>
      have hread := hrun (text ++ spacing.folded) b (rest.length + 1) i l k hk
        (Nat.lt_of_succ_lt_succ hb)
      have hlength : (quotedLines written raw m false cs).length + 1 + (rest.length + 1) =
          (quotedLines written raw m false cs ++ quoteMark single :: rest).length + 1 := by
        simp only [List.length_cons, List.length_append]
        omega
      rw [hlength] at hread
      rw [readSpacing_stop hstart, quotedBehind]
      cases hlines : quotedLines written raw m false cs ++ quoteMark single :: rest with
      | nil => exact absurd hlines (List.append_ne_nil_of_right_ne_nil _ (List.cons_ne_nil _ _))
      | cons first tail =>
          rw [hlines] at hread
          rw [readQuotedParts_of_pos hk]
          exact hread

theorem quotedLines_raw {below : Bool} (hc : raw c = true) :
    quotedLines written raw m below (c :: cs) = c :: quotedLines written raw m true cs := by
  rw [quotedLines, if_pos hc]

theorem quotedLines_written (hc : raw c = false) :
    quotedLines written raw m false (c :: cs) = written c ++ quotedLines written raw m false cs := by
  rw [quotedLines, hc, if_neg Bool.false_ne_true, if_neg Bool.false_ne_true, List.nil_append]

theorem quotedLines_below (hc : raw c = false) :
    quotedLines written raw m true (c :: cs) =
      margin m ++ quotedLines written raw m false (c :: cs) := by
  rw [quotedLines_written hc, quotedLines, hc, if_neg Bool.false_ne_true, if_pos rfl,
    List.append_assoc]

theorem readsRun_cons (h : IsQuotedText single written raw (c :: cs))
    (hrun : ReadsRun single written raw m rest cs)
    (hspaces : ReadsSpaces single written raw m rest cs)
    (hbelow : ReadsBelow single written raw m rest cs) :
    ReadsRun single written raw m rest (c :: cs) := by
  intro text b more i l k hk hb
  cases hc : raw c with
  | true =>
      rcases h.breaks c List.mem_cons_self hc with ⟨hbreak, hprintable, hfeed⟩
      have hblank : isBlankOrBreak c = true := by rw [isBlankOrBreak, hbreak, Bool.or_true]
      rw [quotedLines_raw hc, List.length_cons] at hb ⊢
      have hlength : (c :: (quotedLines written raw m true cs ++ quoteMark single :: rest)).length + 1 =
          (quotedLines written raw m true cs).length + 1 + (rest.length + 1) + 1 := by
        simp only [List.length_cons, List.length_append]
        omega
      have hread := hbelow text [] c b (rest.length + 1) (i + 1) (l + 1) 0 hfeed
        (h.head?_of_raw hc) hb
      rw [Nat.add_right_comm _ 1 more, List.cons_append, readQuotedRun_stop hblank]
      simp only [quotedOn]
      rw [hlength, readSpacing_break hbreak hprintable]
      rw [List.append_assoc] at hread
      exact hread
  | false =>
      by_cases hspace : c = ' '
      · subst hspace
        rw [quotedLines_written hc, h.space.left, List.singleton_append, List.length_cons] at hb ⊢
        have hlength : (' ' :: (quotedLines written raw m false cs ++ quoteMark single :: rest)).length + 1 =
            (quotedLines written raw m false cs).length + 1 + (rest.length + 1) + 1 := by
          simp only [List.length_cons, List.length_append]
          omega
        have hread := hspaces text [' '] b (rest.length + 1) (i + 1) l (k + 1) (Nat.succ_pos k)
          h.head?_of_space hb
        rw [Nat.add_right_comm _ 1 more, List.cons_append, readQuotedRun_stop (by decide)]
        simp only [quotedOn]
        rw [hlength, Spacing.none, readSpacing_blank]
        rw [List.append_assoc] at hread
        exact hread
      · have hstands := h.stands c List.mem_cons_self hc hspace
        rcases hstands.starts with ⟨first, others, hwritten, -⟩
        rw [quotedLines_written hc] at hb ⊢
        have hlength : (written c ++ quotedLines written raw m false cs).length + 1 + more =
            (quotedLines written raw m false cs).length + 1 + (others.length + more) + 1 := by
          rw [hwritten]
          simp only [List.length_cons, List.length_append]
          omega
        have hless : (quotedLines written raw m false cs).length < b := by
          rw [List.length_append] at hb
          omega
        have hread := hrun (text ++ [c]) b (others.length + more) (i + (written c).length) l
          (k + (written c).length) (Nat.add_pos_left hk _) hless
        rw [hlength, List.append_assoc, hstands.reads]
        rw [List.append_assoc] at hread
        exact hread

theorem startsSolid_written (h : IsQuotedText single written raw (c :: cs)) (hc : raw c = false)
    (hspace : c ≠ ' ') (tail : List Char) :
    StartsSolid (quotedLines written raw m false (c :: cs) ++ tail) := by
  rcases (h.stands c List.mem_cons_self hc hspace).starts with ⟨first, others, hwritten, hfirst⟩
  rw [quotedLines_written hc, hwritten]
  exact hfirst

theorem readsSpaces_nil (hrun : ReadsRun single written raw m rest []) :
    ReadsSpaces single written raw m rest [] := by
  intro text blanks b more i l k hk hhead hb
  rw [Nat.add_right_comm]
  exact hrun.behind startsSolid_quoteMark hk hb

theorem readsSpaces_cons (h : IsQuotedText single written raw (c :: cs))
    (hrun : ReadsRun single written raw m rest (c :: cs))
    (hspaces : ReadsSpaces single written raw m rest cs) :
    ReadsSpaces single written raw m rest (c :: cs) := by
  intro text blanks b more i l k hk hc hb
  rw [List.head?_cons, Option.any_some] at hc
  by_cases hspace : c = ' '
  · subst hspace
    rw [quotedLines_written hc, h.space.left, List.singleton_append, List.length_cons] at hb ⊢
    have hread := hspaces text (blanks ++ [' ']) b more (i + 1) l (k + 1) (Nat.succ_pos k)
      h.head?_of_space (Nat.lt_of_succ_lt hb)
    rw [Nat.add_right_comm _ 1 more, List.cons_append, readSpacing_blank]
    simp only [List.append_assoc, List.singleton_append] at hread ⊢
    exact hread
  · rw [Nat.add_right_comm]
    exact hrun.behind (startsSolid_written h hc hspace _) hk hb

theorem folded_of_ne_lineFeed {first : Char} (hfirst : first ≠ '\n') (others : List Char) :
    Spacing.folded ⟨[], [first], others, true⟩ = first :: others := by
  simp only [Spacing.folded, if_true]
  split
  case h_1 heq => exact absurd (List.cons.inj heq).left hfirst
  case h_2 => rfl

theorem ReadsRun.below (hrun : ReadsRun single written raw m rest cs) (hm : 0 < m)
    (hstart : StartsSolid (quotedLines written raw m false cs ++ quoteMark single :: rest))
    {text others : List Char} {first : Char} {b more i l k : Nat} (hfirst : first ≠ '\n')
    (hb : (margin m ++ quotedLines written raw m false cs).length + 1 < b) :
    ReadsTo (quotedBehind single b text (readSpacing none
        ((margin m ++ quotedLines written raw m false cs).length + 1 + more)
        ⟨[], [first], others, true⟩
        ⟨margin m ++ quotedLines written raw m false cs ++ quoteMark single :: rest, i, l, k⟩))
      (text ++ first :: others ++ cs) rest := by
  have hless : (quotedLines written raw m false cs).length + 1 < b := by
    rw [List.length_append] at hb
    omega
  have hlength : (margin m ++ quotedLines written raw m false cs).length + 1 + more =
      (quotedLines written raw m false cs).length + more + 1 + m := by
    simp only [margin, List.length_append, List.length_replicate]
    omega
  have hfolded : text ++ Spacing.folded ⟨[], [first], others, true⟩ ++ cs =
      text ++ first :: others ++ cs := by
    rw [folded_of_ne_lineFeed hfirst]
  rw [hlength, List.append_assoc, margin, readSpacing_margin rfl, ← hfolded]
  exact hrun.behind hstart (Nat.add_pos_right k hm) hless

theorem readsBelow_nil (hm : 0 < m) (hrun : ReadsRun single written raw m rest []) :
    ReadsBelow single written raw m rest [] := by
  intro text others first b more i l k hfirst hhead hb
  have hlines : quotedLines written raw m true [] =
      margin m ++ quotedLines written raw m false [] := by
    rw [quotedLines, quotedLines, if_pos rfl, if_neg Bool.false_ne_true, List.append_nil]
  rw [hlines] at hb ⊢
  exact hrun.below hm startsSolid_quoteMark hfirst hb

theorem readsBelow_cons (hm : 0 < m) (h : IsQuotedText single written raw (c :: cs))
    (hrun : ReadsRun single written raw m rest (c :: cs))
    (hbelow : ReadsBelow single written raw m rest cs) :
    ReadsBelow single written raw m rest (c :: cs) := by
  intro text others first b more i l k hfirst hhead hb
  cases hc : raw c with
  | true =>
      rcases h.breaks c List.mem_cons_self hc with ⟨hbreak, hprintable, -⟩
      rw [quotedLines_raw hc, List.length_cons] at hb ⊢
      have hread := hbelow text (others ++ [c]) first b more (i + 1) (l + 1) 0 hfirst
        (h.head?_of_raw hc) (Nat.lt_of_succ_lt hb)
      rw [Nat.add_right_comm _ 1 more, List.cons_append, readSpacing_break hbreak hprintable]
      simp only [List.append_assoc, List.cons_append, List.nil_append, if_true] at hread ⊢
      exact hread
  | false =>
      have hspace : c ≠ ' ' := fun heq => hhead (congrArg some heq)
      rw [quotedLines_below hc] at hb ⊢
      exact hrun.below hm (startsSolid_written h hc hspace _) hfirst hb

/-- Each of the three loops reads the rest of the text, by induction on the rest. -/
theorem reads_quoted (hm : 0 < m) (hrest : rest.head? ≠ some '\'')
    (h : IsQuotedText single written raw cs) :
    ReadsRun single written raw m rest cs ∧ ReadsSpaces single written raw m rest cs ∧
      ReadsBelow single written raw m rest cs := by
  induction cs with
  | nil =>
      have hrun : ReadsRun single written raw m rest [] := readsRun_nil hrest
      exact ⟨hrun, readsSpaces_nil hrun, readsBelow_nil hm hrun⟩
  | cons c cs ih =>
      rcases ih h.tail with ⟨hrun, hspaces, hbelow⟩
      have hnext := readsRun_cons h hrun hspaces hbelow
      exact ⟨hnext, readsSpaces_cons h hnext hspaces, readsBelow_cons hm h hnext hbelow⟩

/-- A text between quotes is read back, up to what follows the closing quote. -/
theorem readQuoted_quotedLines (hm : 0 < m) (hrest : rest.head? ≠ some '\'')
    (h : IsQuotedText single written raw cs) (i l k : Nat) :
    ReadsTo (readQuoted single
        ⟨quoteMark single :: (quotedLines written raw m false cs ++ quoteMark single :: rest),
          i, l, k⟩)
      cs rest := by
  have hless : (quotedLines written raw m false cs).length <
      (quoteMark single :: (quotedLines written raw m false cs ++ quoteMark single :: rest)).length := by
    simp only [List.length_cons, List.length_append]
    omega
  have hlength : (quotedLines written raw m false cs).length + 1 + (rest.length + 1) =
      (quotedLines written raw m false cs ++ quoteMark single :: rest).length + 1 := by
    simp only [List.length_cons, List.length_append]
    omega
  have hread := (reads_quoted hm hrest h).left [] _ (rest.length + 1) (i + 1) l (k + 1)
    (Nat.succ_pos k) hless
  rw [hlength, List.nil_append] at hread
  rw [readQuoted, Cursor.skip_eq, List.drop_succ_cons, List.drop_zero]
  cases hlines : quotedLines written raw m false cs ++ quoteMark single :: rest with
  | nil => exact absurd hlines (List.append_ne_nil_of_right_ne_nil _ (List.cons_ne_nil _ _))
  | cons first tail =>
      rw [hlines] at hread
      rw [readQuotedParts_of_pos (Nat.succ_pos k)]
      exact hread

end QuotedParts

/-!
## Single quotes
-/

theorem standsFor_doubledQuote {c : Char} (h : isBlankOrBreak c = false) :
    StandsFor true (doubledQuote c) c := by
  have hblank : (isSpace c || isBreak c) = false := h
  constructor
  case starts =>
    unfold doubledQuote
    split
    case isTrue => exact ⟨_, _, rfl, by decide⟩
    case isFalse => exact ⟨c, [], rfl, h⟩
  case reads =>
    intro b text tail i l k
    unfold doubledQuote
    split
    case isTrue hquote =>
      rw [eq_of_beq hquote] at hblank ⊢
      simp only [List.cons_append, List.nil_append, readQuotedRun, hblank, Bool.false_eq_true,
        if_false, if_true, beq_self_eq_true, List.head?_cons, Cursor.skip_eq, List.drop_succ_cons,
        List.drop_zero]
      rfl
    case isFalse hquote =>
      simp only [List.cons_append, List.nil_append, readQuotedRun, hblank, Bool.false_eq_true,
        if_false, if_true, hquote, Cursor.skip_eq, List.drop_succ_cons, List.drop_zero]
      rfl

theorem withMargins_doubledQuote (m : Nat) (below : Bool) (cs : List Char) :
    withMargins m below (cs.flatMap doubledQuote) ++
        (if below && cs.isEmpty || endsWith isBreak cs then margin m else []) =
      quotedLines doubledQuote isBreak m below cs := by
  induction cs generalizing below with
  | nil => cases below <;> rfl
  | cons c cs ih =>
      have hend (below : Bool) : (below && (c :: cs).isEmpty || endsWith isBreak (c :: cs)) =
          (isBreak c && cs.isEmpty || endsWith isBreak cs) := by
        cases cs <;> simp [endsWith]
      rw [List.flatMap_cons, hend]
      cases hc : isBreak c with
      | true =>
          have hquote : (c == '\'') = false := by
            rw [beq_eq_false_iff_ne]
            rintro rfl
            cases hc
          rw [quotedLines_raw hc, ← ih, doubledQuote, hquote, if_neg Bool.false_ne_true,
            List.singleton_append, withMargins, hc, if_pos rfl]
          rfl
      | false =>
          have hnext : withMargins m false (doubledQuote c ++ cs.flatMap doubledQuote) =
              doubledQuote c ++ withMargins m false (cs.flatMap doubledQuote) := by
            unfold doubledQuote
            split <;> simp [withMargins, hc, (by decide : isBreak '\'' = false)]
          have hmargin : withMargins m true (doubledQuote c ++ cs.flatMap doubledQuote) =
              margin m ++ withMargins m false (doubledQuote c ++ cs.flatMap doubledQuote) := by
            unfold doubledQuote
            split <;> simp [withMargins, hc, (by decide : isBreak '\'' = false)]
          have hline : withMargins m false (doubledQuote c ++ cs.flatMap doubledQuote) ++
              (if false && cs.isEmpty || endsWith isBreak cs then margin m else []) =
                quotedLines doubledQuote isBreak m false (c :: cs) := by
            rw [hnext, quotedLines_written hc, ← ih, List.append_assoc]
          cases below with
          | false => exact hline
          | true => rw [quotedLines_below hc, ← hline, hmargin, List.append_assoc]

theorem singleQuoted_eq (m : Nat) (cs : List Char) :
    singleQuoted m cs =
      quoteMark true :: (quotedLines doubledQuote isBreak m false cs ++ [quoteMark true]) := by
  rw [← withMargins_doubledQuote]
  simp [singleQuoted, quoteMark]

theorem isQuotedText_single {cs : List Char} (h : allowsSingleQuotes cs = true)
    (hfeed : '\n' ∉ cs) : IsQuotedText true doubledQuote isBreak cs := by
  simp only [allowsSingleQuotes, isUnescaped, Bool.and_eq_true, Bool.not_eq_true'] at h
  rcases h with ⟨⟨hprintable, hspaceBreak⟩, hbreakSpace⟩
  rw [List.all_eq_true] at hprintable
  constructor
  case breaks =>
    intro c hmem hbreak
    exact ⟨hbreak, hprintable c hmem, fun heq => hfeed (heq ▸ hmem)⟩
  case stands =>
    intro c hmem hbreak hspace
    exact standsFor_doubledQuote (isBlankOrBreak_of_plain (hprintable c hmem) hbreak hspace)
  case space => decide
  case spaceBreak => exact hspaceBreak
  case breakSpace => exact hbreakSpace

/-!
## Double quotes
-/

theorem standsFor_escape {e c : Char} {digits : List Char} (he : isBreak e = false)
    (h : ∀ tail, escaped? (e :: digits ++ tail) = some (c, digits.length + 2)) :
    StandsFor false ('\\' :: e :: digits) c := by
  constructor
  case starts => exact ⟨_, _, rfl, by decide⟩
  case reads =>
    intro b text tail i l k
    have hblank : (isSpace '\\' || isBreak '\\') = false := by decide
    have hquote : ('\\' == '"') = false := by decide
    rw [List.cons_append, readQuotedRun]
    simp only [hblank, hquote, Bool.false_eq_true, if_false, if_true, beq_self_eq_true]
    rw [List.cons_append, List.head?_cons, Option.any_some, he, if_neg Bool.false_ne_true,
      ← List.cons_append, h tail]
    have hdrop : (digits ++ tail).drop digits.length = tail := List.drop_left
    simp only [Cursor.skip_eq, List.cons_append, List.drop_succ_cons, hdrop, List.length_cons]

theorem standsFor_plain {c : Char} (hsolid : isBlankOrBreak c = false) (hquote : c ≠ '"')
    (hescape : c ≠ '\\') : StandsFor false [c] c := by
  have hblank : (isSpace c || isBreak c) = false := hsolid
  constructor
  case starts => exact ⟨c, [], rfl, hsolid⟩
  case reads =>
    intro b text tail i l k
    simp only [List.cons_append, List.nil_append, readQuotedRun, hblank, Bool.false_eq_true,
      if_false, beq_eq_false_iff_ne.mpr hquote, beq_eq_false_iff_ne.mpr hescape, Cursor.skip_eq,
      List.drop_succ_cons, List.drop_zero]
    rfl

/-!
### Codes
-/

theorem upperHexDigits_succ (count n : Nat) :
    upperHexDigits (count + 1) n =
      (Nat.digitChar (n / Nat.pow 16 count % 16)).toUpper :: upperHexDigits count n := by
  rw [upperHexDigits, List.range_succ, List.reverse_append, List.reverse_singleton,
    List.singleton_append, List.map_cons]
  rfl

theorem length_upperHexDigits (count n : Nat) : (upperHexDigits count n).length = count := by
  rw [upperHexDigits, List.length_map, List.length_reverse, List.length_range]

theorem hexDigit?_digitChar : ∀ d < 16, hexDigit? (Nat.digitChar d).toUpper = some d := by
  decide

theorem hexNumber?_concat {front : List Char} {c : Char} {n d : Nat}
    (hfront : hexNumber? front = some n) (hdigit : hexDigit? c = some d) :
    hexNumber? (front ++ [c]) = some (16 * n + d) := by
  unfold hexNumber? at hfront ⊢
  rw [List.foldl_append, hfront, List.foldl_cons, hdigit]
  rfl

theorem hexNumber?_append {front : List Char} {start : Nat} (h : hexNumber? front = some start)
    (count n : Nat) :
    hexNumber? (front ++ upperHexDigits count n) =
      some (start * Nat.pow 16 count + n % Nat.pow 16 count) := by
  have hpow (count : Nat) : Nat.pow 16 count = 16 ^ count := rfl
  rw [hpow]
  induction count generalizing front start with
  | zero =>
      rw [Nat.pow_zero, Nat.mul_one, Nat.mod_one, Nat.add_zero, ← h]
      exact congrArg hexNumber? (List.append_nil front)
  | succ count ih =>
      have hdigit := hexDigit?_digitChar (n / 16 ^ count % 16) (Nat.mod_lt _ (by decide))
      have hshift (d : Nat) : (16 * start + d) * 16 ^ count =
          start * 16 ^ (count + 1) + 16 ^ count * d := by
        rw [Nat.add_mul, Nat.pow_succ, Nat.mul_comm 16 start, Nat.mul_assoc, Nat.mul_comm 16,
          Nat.mul_comm d]
      rw [upperHexDigits_succ, hpow, List.append_cons, ih (hexNumber?_concat h hdigit), hshift,
        Nat.mod_pow_succ, Nat.add_assoc, Nat.add_comm (16 ^ count * _)]

theorem charOfCode?_toNat (c : Char) : charOfCode? c.toNat = some c := by
  have hvalid : c.toNat.isValidChar := c.valid
  rw [charOfCode?, dif_pos hvalid]
  rfl

theorem hexEscape?_upperHexDigits {c : Char} {count : Nat} (h : c.toNat < Nat.pow 16 count)
    (tail : List Char) :
    hexEscape? count (upperHexDigits count c.toNat ++ tail) = some (c, count + 2) := by
  have hlength := length_upperHexDigits count c.toNat
  have htake : (upperHexDigits count c.toNat ++ tail).take count = upperHexDigits count c.toNat :=
    List.take_left' hlength
  have hnumber : hexNumber? (upperHexDigits count c.toNat) = some c.toNat := by
    have hread := hexNumber?_append (rfl : hexNumber? [] = some 0) count c.toNat
    rwa [Nat.zero_mul, Nat.zero_add, Nat.mod_eq_of_lt h] at hread
  rw [hexEscape?]
  simp only [htake, hlength, Nat.lt_irrefl, if_false, hnumber, Option.bind_some, charOfCode?_toNat]

/-!
### Escapes
-/

theorem standsFor_letter {e c : Char} {code : Nat} (hcode : c.toNat = code)
    (he : isBreak e = false) (h : ∀ tail, escaped? (e :: tail) = some (Char.ofNat code, 2)) :
    StandsFor false ['\\', e] c := by
  have hc : Char.ofNat code = c := by rw [← hcode, Char.ofNat_toNat]
  rw [hc] at h
  exact standsFor_escape he h

theorem standsFor_hex {e c : Char} {count : Nat} (hcode : c.toNat < Nat.pow 16 count)
    (he : isBreak e = false) (h : ∀ rest, escaped? (e :: rest) = hexEscape? count rest) :
    StandsFor false ('\\' :: e :: upperHexDigits count c.toNat) c := by
  refine standsFor_escape he fun tail => ?_
  rw [List.cons_append, h, hexEscape?_upperHexDigits hcode, length_upperHexDigits]

theorem standsFor_escapedChar {c : Char} (hspace : c ≠ ' ') :
    StandsFor false (escapedChar c) c := by
  unfold escapedChar
  by_cases hquote : c = '"'
  · rw [hquote]
    exact standsFor_letter rfl (by decide) fun tail => rfl
  · rw [if_neg (by rwa [beq_iff_eq])]
    by_cases hescape : c = '\\'
    · rw [hescape]
      exact standsFor_letter rfl (by decide) fun tail => rfl
    · rw [if_neg (by rwa [beq_iff_eq])]
      cases hplain : isPrintable c && !isBreak c with
      | true =>
          rw [Bool.and_eq_true, Bool.not_eq_true'] at hplain
          rw [if_pos rfl]
          exact standsFor_plain (isBlankOrBreak_of_plain hplain.left hplain.right hspace) hquote
            hescape
      | false =>
          rw [if_neg Bool.false_ne_true]
          split
          case h_13 =>
            have hbound : c.toNat < Nat.pow 16 8 := c.val.toNat_lt
            split
            case isTrue hcode => exact standsFor_hex (Nat.lt_succ_of_le hcode) (by decide) fun _ => rfl
            case isFalse =>
              split
              case isTrue hcode => exact standsFor_hex (Nat.lt_succ_of_le hcode) (by decide) fun _ => rfl
              case isFalse => exact standsFor_hex hbound (by decide) fun _ => rfl
          all_goals
            rename_i hcode
            exact standsFor_letter hcode (by decide) fun tail => rfl

theorem hasPair_false (p : Char → Bool) (cs : List Char) :
    hasPair p (fun _ => false) cs = false ∧ hasPair (fun _ => false) p cs = false := by
  induction cs with
  | nil => exact ⟨rfl, rfl⟩
  | cons c cs ih =>
      cases cs with
      | nil => exact ⟨rfl, rfl⟩
      | cons d cs => simp [hasPair, ih]

theorem isQuotedText_double (cs : List Char) :
    IsQuotedText false escapedChar (fun _ => false) cs := by
  constructor
  case breaks => exact fun c _ h => nomatch h
  case stands => exact fun c _ _ hspace => standsFor_escapedChar hspace
  case space => exact ⟨by decide, rfl⟩
  case spaceBreak => exact (hasPair_false _ cs).left
  case breakSpace => exact (hasPair_false _ cs).right

theorem doubleQuoted_eq (m : Nat) (cs : List Char) :
    doubleQuoted cs =
      quoteMark false :: (quotedLines escapedChar (fun _ => false) m false cs ++ [quoteMark false]) := by
  have hlines : quotedLines escapedChar (fun _ => false) m false cs = cs.flatMap escapedChar := by
    induction cs with
    | nil => rfl
    | cons c cs ih => rw [quotedLines_written rfl, List.flatMap_cons, ih]
  rw [hlines]
  rfl

end Yaml
end TransformChain
