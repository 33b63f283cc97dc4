import TransformChain.Yaml.Scalar
import TransformChain.Yaml.Writing

/-!
# White space and plain scalars

What the reader of scalars makes of white space, and of a text that is written as it is.
-/

namespace TransformChain
namespace Yaml

/-!
## Characters
-/

theorem eq_space_of_isPrintable {c : Char} (hprintable : isPrintable c = true)
    (hspace : isSpace c = true) : c = ' ' := by
  unfold isSpace at hspace
  rcases Bool.or_eq_true_iff.mp hspace with h | h
  · exact eq_of_beq h
  · rw [eq_of_beq h] at hprintable
    cases hprintable

theorem isSpace_of_solid {c : Char} (h : isBlankOrBreak c = false) : isSpace c = false :=
  (Bool.or_eq_false_iff.mp h).left

theorem isBreak_of_solid {c : Char} (h : isBlankOrBreak c = false) : isBreak c = false :=
  (Bool.or_eq_false_iff.mp h).right

def StartsSolid : List Char → Prop
  | [] => True
  | c :: _ => isBlankOrBreak c = false

theorem ne_return_of_isPrintable {c : Char} (h : isPrintable c = true) : c ≠ '\r' := by
  rintro rfl
  cases h

/-!
## Cursors
-/

namespace Cursor

variable {rest : List Char} {i l k : Nat}

@[simp] theorem skip_eq (count : Nat) :
    (Cursor.mk rest i l k).skip count = ⟨rest.drop count, i + count, l, k + count⟩ := rfl

theorem skip_append (cs : List Char) :
    (Cursor.mk (cs ++ rest) i l k).skip cs.length = ⟨rest, i + cs.length, l, k + cs.length⟩ := by
  rw [skip_eq, List.drop_left]

theorem readWhile_append {test : Char → Bool} {cs : List Char} (hcs : ∀ c ∈ cs, test c = true)
    (hrest : rest.head?.any test = false) :
    (Cursor.mk (cs ++ rest) i l k).readWhile test =
      (cs, ⟨rest, i + cs.length, l, k + cs.length⟩) := by
  have htake : (cs ++ rest).takeWhile test = cs := by
    rw [List.takeWhile_append_of_pos hcs]
    cases rest with
    | nil => simp
    | cons c rest =>
        have hc : test c = false := hrest
        simp [hc]
  simp only [readWhile, htake, skip_append]

/-- A break other than a carriage return stands for itself. -/
theorem readBreak_of_isPrintable {c : Char} (hbreak : isBreak c = true)
    (hprintable : isPrintable c = true) :
    (Cursor.mk (c :: rest) i l k).readBreak = ([c], ⟨rest, i + 1, l + 1, 0⟩) := by
  have hlength : breakLength (c :: rest) = 1 := by
    unfold breakLength
    split
    case h_1 => contradiction
    case h_2 heq =>
      rw [List.cons.injEq] at heq
      exact absurd heq.left (ne_return_of_isPrintable hprintable)
    case h_3 => rfl
  have htext : breakText (c :: rest) = [c] := by
    simp only [breakText]
    split
    case isTrue => rfl
    case isFalse hother =>
      simp only [isBreak, Bool.or_eq_true, beq_iff_eq] at hbreak hother
      simp only [isPrintable, Bool.and_eq_true, bne_iff_ne, ne_eq] at hprintable
      rcases hbreak with (((h | h) | h) | h) | h
      · rw [h]
      · exact absurd h hprintable.left.right
      · exact absurd h hprintable.right
      · exact absurd (Or.inl h) hother
      · exact absurd (Or.inr h) hother
  simp only [readBreak, hbreak, if_true, htext, nextLine, hlength]
  rfl

end Cursor

/-!
## White space
-/

section Spacing

variable {margin : Option Int} {b i l k : Nat} {spacing : Spacing} {rest : List Char}

theorem readSpacing_stop (h : StartsSolid rest) :
    readSpacing margin (b + 1) spacing ⟨rest, i, l, k⟩ = some (spacing, ⟨rest, i, l, k⟩) := by
  cases rest with
  | nil => rfl
  | cons c rest =>
      simp only [readSpacing, isSpace_of_solid h, isBreak_of_solid h, Bool.false_eq_true, if_false]

theorem readSpacing_space :
    readSpacing margin (b + 1) spacing ⟨' ' :: rest, i, l, k⟩ =
      readSpacing margin b
        (if spacing.crossed then spacing else { spacing with blanks := spacing.blanks ++ [' '] })
        ⟨rest, i + 1, l, k + 1⟩ := by
  have hspace : isSpace ' ' = true := by decide
  have htab : (' ' == '\t') = false := by decide
  rw [readSpacing]
  cases margin <;> simp [hspace, htab]

theorem readSpacing_blank {blanks : List Char} :
    readSpacing margin (b + 1) ⟨blanks, [], [], false⟩ ⟨' ' :: rest, i, l, k⟩ =
      readSpacing margin b ⟨blanks ++ [' '], [], [], false⟩ ⟨rest, i + 1, l, k + 1⟩ :=
  readSpacing_space

theorem readSpacing_break {c : Char} (hbreak : isBreak c = true) (hprintable : isPrintable c = true) :
    readSpacing margin (b + 1) spacing ⟨c :: rest, i, l, k⟩ =
      readSpacing margin b
        (if spacing.crossed then { spacing with others := spacing.others ++ [c] }
          else { spacing with blanks := [], first := [c], crossed := true })
        ⟨rest, i + 1, l + 1, 0⟩ := by
  have hspace : isSpace c = false := by
    cases hspace : isSpace c with
    | false => rfl
    | true =>
        rw [eq_space_of_isPrintable hprintable hspace] at hbreak
        cases hbreak
  rw [readSpacing]
  simp only [hspace, hbreak, Bool.false_eq_true, if_false, if_true,
    Cursor.readBreak_of_isPrintable hbreak hprintable]

/-- Behind a line break a margin stands for nothing. -/
theorem readSpacing_margin (hcrossed : spacing.crossed = true) (m : Nat) :
    readSpacing margin (b + m) spacing ⟨List.replicate m ' ' ++ rest, i, l, k⟩ =
      readSpacing margin b spacing ⟨rest, i + m, l, k + m⟩ := by
  induction m generalizing i k with
  | zero => rfl
  | succ m ih =>
      rw [List.replicate_succ, List.cons_append, ← Nat.add_assoc, readSpacing_space, hcrossed,
        if_pos rfl, ih, Nat.add_assoc i 1 m, Nat.add_assoc k 1 m, Nat.add_comm 1 m]

theorem readSpacing_lineEnd {m : Nat} (h : StartsSolid rest)
    (hbudget : m + 2 ≤ b) :
    readSpacing margin b Spacing.none ⟨'\n' :: (List.replicate m ' ' ++ rest), i, l, k⟩ =
      some (⟨[], ['\n'], [], true⟩, ⟨rest, i + 1 + m, l + 1, m⟩) := by
  obtain ⟨more, rfl⟩ := Nat.exists_eq_add_of_le hbudget
  have hlength : m + 2 + more = more + 1 + m + 1 := by omega
  rw [hlength, readSpacing_break (by decide) (by decide)]
  simp only [Spacing.none, Bool.false_eq_true, if_false]
  rw [readSpacing_margin rfl, readSpacing_stop h, Nat.zero_add]

end Spacing

/-!
## Plain scalars
-/

/-- Behind the character the text goes on as one plain scalar up to the end of its line. -/
def GoesOn : Char → List Char → Prop
  | last, [] => last ≠ ':' ∧ last ≠ ' '
  | last, c :: cs =>
      isPrintable c = true ∧ isBreak c = false ∧ (last = ':' → c ≠ ' ') ∧ (last = ' ' → c ≠ '#') ∧
        GoesOn c cs

/-- A word of a plain scalar, as far as the white space or the colon of a key behind it. -/
theorem readPlainWord_eq {word more : List Char} (hsolid : ∀ c ∈ word, isBlankOrBreak c = false)
    (hmore : atBlank more = true ∨ ∃ rest, more = ':' :: rest ∧ atBlank rest = true)
    (hlast : word.getLast? = some ':' → atBlank more = false) :
    readPlainWord false (word ++ more) = some (word, more) := by
  induction word with
  | nil =>
      rcases hmore with hblank | ⟨rest, rfl, hrest⟩
      · cases more with
        | nil => rfl
        | cons c rest =>
            have hc : (isSpace c || isBreak c) = true := hblank
            simp only [List.nil_append, readPlainWord, hc, if_true]
      · have hcolon : (isSpace ':' || isBreak ':') = false := by decide
        simp only [List.nil_append, readPlainWord, hcolon, Bool.false_and, Bool.false_eq_true,
          if_false, beq_self_eq_true, Bool.true_and, hrest, if_true]
  | cons c word ih =>
      rw [List.forall_mem_cons] at hsolid
      have hc : (isSpace c || isBreak c) = false := hsolid.left
      have hcolon : (c == ':' && atBlank (word ++ more)) = false := by
        cases word with
        | nil =>
            by_cases heq : c = ':'
            · subst heq
              exact hlast rfl
            · rw [beq_eq_false_iff_ne.mpr heq, Bool.false_and]
        | cons d word =>
            have hd : atBlank (d :: word ++ more) = false := (hsolid.right d List.mem_cons_self)
            rw [hd, Bool.and_false]
      have hrest : readPlainWord false (word ++ more) = some (word, more) := by
        apply ih hsolid.right
        intro h
        apply hlast
        cases word with
        | nil => cases h
        | cons d word => rwa [List.getLast?_cons_cons]
      simp only [List.cons_append, readPlainWord, hc, hcolon, hrest, Bool.false_and,
        Bool.false_eq_true, if_false]

/-- What a scalar on one line is followed by: the end of its line and the margin of the next one. -/
def lineEnd (m : Nat) (rest : List Char) : List Char :=
  '\n' :: (List.replicate m ' ' ++ rest)

/-- A plain scalar goes on behind white space unless the next line is indented too little. -/
def plainGoesOn (margin : Int) (b : Nat) (content : List Char) :
    Option (Spacing × Cursor) → Option (List Char × Bool × Cursor)
  | none => none
  | some (spacing, cursor) =>
      if Int.ofNat cursor.column < margin then some (content, spacing.crossed, cursor)
      else readPlainParts false margin b content spacing cursor

section PlainParts

variable {margin m b i l k : Nat} {rest text : List Char} {spacing : Spacing}

theorem atMarker_of_pos {cs : List Char} (h : 0 < k) :
    (Cursor.mk cs i l k).atMarker = false := by
  have hcolumn : (k == 0) = false := beq_eq_false_iff_ne.mpr (Nat.ne_of_gt h)
  simp only [Cursor.atMarker, hcolumn, Bool.false_and]

theorem readPlainParts_word {word tail : List Char} {c : Char} (hk : 0 < k) (hne : word ≠ [])
    (hsolid : ∀ d ∈ word, isBlankOrBreak d = false) (hmark : word.head? ≠ some '#')
    (hlast : word.getLast? ≠ some ':') (hc : isBlankOrBreak c = true) :
    readPlainParts false (Int.ofNat margin) (b + 1) text spacing ⟨word ++ c :: tail, i, l, k⟩ =
      plainGoesOn (Int.ofNat margin) b (text ++ spacing.folded ++ word)
        (readSpacing (some (Int.ofNat margin)) ((c :: tail).length + 1) Spacing.none
          ⟨c :: tail, i + word.length, l, k + word.length⟩) := by
  have hword : readPlainWord false (word ++ c :: tail) = some (word, c :: tail) :=
    readPlainWord_eq hsolid (Or.inl hc) (fun h => absurd h hlast)
  have hpeek : (Cursor.peek? ⟨word ++ c :: tail, i, l, k⟩ == some '#') = false := by
    cases word with
    | nil => exact absurd rfl hne
    | cons d word => exact beq_eq_false_iff_ne.mpr hmark
  have hempty : word.isEmpty = false := by
    cases word with
    | nil => exact absurd rfl hne
    | cons d word => rfl
  have hblank : (isSpace c || isBreak c) = true := hc
  rw [readPlainParts]
  simp only [atMarker_of_pos hk, hpeek, Bool.false_or, Bool.false_eq_true, if_false, hword,
    Cursor.skip_append, hempty, hblank, Bool.not_true, Bool.not_false, Bool.true_and,
    decide_eq_true_eq]
  cases readSpacing (some (Int.ofNat margin)) ((c :: tail).length + 1) Spacing.none
    ⟨c :: tail, i + word.length, l, k + word.length⟩ with
  | none => rfl
  | some result => rfl

/-- In the middle of a word, what is left of the line is read. -/
def ReadsInWord (margin m : Nat) (rest cs : List Char) : Prop :=
  ∀ (front : List Char) (last : Char) (text : List Char) (spacing : Spacing) (b i l k : Nat),
    (∀ c ∈ front ++ [last], isBlankOrBreak c = false) → (front ++ [last]).head? ≠ some '#' →
    GoesOn last cs → 0 < k → margin ≤ k → cs.length < b →
    readPlainParts false (Int.ofNat margin) b text spacing
        ⟨front ++ [last] ++ (cs ++ lineEnd m rest), i, l, k⟩ =
      some (text ++ spacing.folded ++ (front ++ [last] ++ cs), true,
        ⟨rest, i + (front ++ [last] ++ cs).length + 1 + m, l + 1, m⟩)

/-- The same in white space between words. -/
def ReadsBetween (margin m : Nat) (rest cs : List Char) : Prop :=
  ∀ (content blanks : List Char) (b more i l k : Nat),
    GoesOn ' ' cs → 0 < k → margin ≤ k → cs.length < b →
    plainGoesOn (Int.ofNat margin) b content (readSpacing (some (Int.ofNat margin)) (cs.length + 1 + more)
        ⟨blanks, [], [], false⟩ ⟨cs ++ lineEnd m rest, i, l, k⟩) =
      some (content ++ blanks ++ cs, true, ⟨rest, i + cs.length + 1 + m, l + 1, m⟩)

theorem readsInWord_nil (hmargin : m < margin)
    (hrest : StartsSolid rest) : ReadsInWord margin m rest [] := by
  intro front last text spacing b i l k hsolid hmark hgoes hk hmarginLe hb
  cases b with
  | zero => cases hb
  | succ b =>
      have hlast : (front ++ [last]).getLast? ≠ some ':' := by
        rw [List.getLast?_concat]
        exact fun h => hgoes.left (Option.some.inj h)
      have hless : Int.ofNat m < Int.ofNat margin := Int.ofNat_lt.mpr hmargin
      rw [List.nil_append, lineEnd, readPlainParts_word hk (by simp) hsolid hmark hlast (by decide),
        readSpacing_lineEnd hrest (by simp)]
      simp only [plainGoesOn, if_pos hless, List.append_nil]

theorem readsInWord_cons {c : Char} {cs : List Char} (hword : ReadsInWord margin m rest cs)
    (hbetween : ReadsBetween margin m rest cs) : ReadsInWord margin m rest (c :: cs) := by
  intro front last text spacing b i l k hsolid hmark hgoes hk hmarginLe hb
  rcases hgoes with ⟨hprintable, hbreak, hcolon, -, hgoes⟩
  rw [List.length_cons] at hb
  cases hspace : isSpace c with
  | false =>
      have hc : isBlankOrBreak c = false := by rw [isBlankOrBreak, hspace, hbreak]; rfl
      have hsolid' : ∀ d ∈ (front ++ [last]) ++ [c], isBlankOrBreak d = false :=
        List.forall_mem_append.mpr ⟨hsolid, List.forall_mem_singleton.mpr hc⟩
      have hmark' : ((front ++ [last]) ++ [c]).head? ≠ some '#' := by
        cases front <;> exact hmark
      have h := hword (front ++ [last]) c text spacing b i l k hsolid' hmark' hgoes hk hmarginLe
        (by omega)
      simpa only [List.append_assoc, List.singleton_append, List.cons_append, List.nil_append] using h
  | true =>
      have hc := eq_space_of_isPrintable hprintable hspace
      subst hc
      cases b with
      | zero => cases hb
      | succ b =>
          have hlast : (front ++ [last]).getLast? ≠ some ':' := by
            rw [List.getLast?_concat]
            exact fun h => hcolon (Option.some.inj h) rfl
          have hlength : (' ' :: (cs ++ lineEnd m rest)).length + 1 =
              (cs.length + 1 + (lineEnd m rest).length) + 1 := by
            simp only [List.length_cons, List.length_append]
            omega
          rw [List.cons_append, readPlainParts_word hk (by simp) hsolid hmark hlast (by decide), hlength,
            Spacing.none, readSpacing_blank,
            hbetween _ _ b _ _ l _ hgoes (by omega) (by omega) (by omega)]
          have hindex : i + (front ++ [last]).length + 1 + cs.length + 1 + m =
              i + (front ++ [last] ++ ' ' :: cs).length + 1 + m := by
            simp only [List.length_append, List.length_cons, List.length_nil]
            omega
          rw [hindex]
          simp only [List.append_assoc, List.cons_append, List.nil_append]

theorem readsBetween_cons {c : Char} {cs : List Char} (hword : ReadsInWord margin m rest cs)
    (hbetween : ReadsBetween margin m rest cs) : ReadsBetween margin m rest (c :: cs) := by
  intro content blanks b more i l k hgoes hk hmarginLe hb
  rcases hgoes with ⟨hprintable, hbreak, -, hmark, hgoes⟩
  rw [List.length_cons] at hb
  have hlength : (c :: cs).length + 1 + more = cs.length + 1 + more + 1 := by
    rw [List.length_cons]
    omega
  rw [hlength]
  cases hspace : isSpace c with
  | false =>
      have hc : isBlankOrBreak c = false := by rw [isBlankOrBreak, hspace, hbreak]; rfl
      have hnot : ¬Int.ofNat k < Int.ofNat margin := Int.not_lt.mpr (Int.ofNat_le.mpr hmarginLe)
      have hsolid : ∀ d ∈ [] ++ [c], isBlankOrBreak d = false := List.forall_mem_singleton.mpr hc
      have hhead : ([] ++ [c]).head? ≠ some '#' := fun h => hmark rfl (Option.some.inj h)
      have h := hword [] c content ⟨blanks, [], [], false⟩ b i l k hsolid hhead hgoes hk hmarginLe
        (by omega)
      have hstart : StartsSolid (c :: (cs ++ lineEnd m rest)) := hc
      rw [List.cons_append, readSpacing_stop hstart]
      simp only [plainGoesOn, if_neg hnot]
      exact h
  | true =>
      have hc := eq_space_of_isPrintable hprintable hspace
      subst hc
      have hindex : i + 1 + cs.length + 1 + m = i + (' ' :: cs).length + 1 + m := by
        rw [List.length_cons]
        omega
      rw [List.cons_append, readSpacing_blank,
        hbetween _ _ b more _ l _ hgoes (by omega) (by omega) (by omega), hindex]
      simp only [List.append_assoc, List.cons_append, List.nil_append]

theorem readsInWord_and_between (hmargin : m < margin)
    (hrest : StartsSolid rest) (cs : List Char) :
    ReadsInWord margin m rest cs ∧ ReadsBetween margin m rest cs := by
  induction cs with
  | nil =>
      constructor
      · exact readsInWord_nil hmargin hrest
      · intro content blanks b more i l k hgoes
        exact absurd rfl hgoes.right
  | cons c cs ih =>
      constructor
      · exact readsInWord_cons ih.left ih.right
      · exact readsBetween_cons ih.left ih.right

/-- A plain scalar on the rest of a line, where the next line is indented too little to go on
with it. -/
theorem readPlain_line {c : Char} {cs : List Char} (hc : isBlankOrBreak c = false)
    (hmark : c ≠ '#') (hgoes : GoesOn c cs) (hk : 0 < k) (hmargin : m < margin)
    (hmarginLe : margin ≤ k) (hrest : StartsSolid rest) :
    readPlain false (Int.ofNat margin) ⟨c :: cs ++ lineEnd m rest, i, l, k⟩ =
      some (c :: cs, true, ⟨rest, i + (c :: cs).length + 1 + m, l + 1, m⟩) := by
  have hsolid : ∀ d ∈ [] ++ [c], isBlankOrBreak d = false := List.forall_mem_singleton.mpr hc
  have hhead : ([] ++ [c]).head? ≠ some '#' := fun h => hmark (Option.some.inj h)
  exact (readsInWord_and_between hmargin hrest cs).left [] c [] Spacing.none _ i l k hsolid hhead
    hgoes hk hmarginLe (by simp only [List.cons_append, List.length_cons, List.length_append]; omega)

/-- A plain scalar that is one word, up to the colon that makes it a key. -/
theorem readPlain_key {word tail : List Char}
    (hmarker : (Cursor.mk (word ++ ':' :: tail) i l k).atMarker = false)
    (hne : word ≠ []) (hsolid : ∀ c ∈ word, isBlankOrBreak c = false) (hmark : word.head? ≠ some '#')
    (hlast : word.getLast? ≠ some ':') (htail : atBlank tail = true) (bound : Int) :
    readPlain false bound ⟨word ++ ':' :: tail, i, l, k⟩ =
      some (word, false, ⟨':' :: tail, i + word.length, l, k + word.length⟩) := by
  have hword : readPlainWord false (word ++ ':' :: tail) = some (word, ':' :: tail) :=
    readPlainWord_eq hsolid (Or.inr ⟨tail, rfl, htail⟩) (fun h => absurd h hlast)
  have hpeek : (Cursor.peek? ⟨word ++ ':' :: tail, i, l, k⟩ == some '#') = false := by
    cases word with
    | nil => exact absurd rfl hne
    | cons d word => exact beq_eq_false_iff_ne.mpr hmark
  have hempty : word.isEmpty = false := by
    cases word with
    | nil => exact absurd rfl hne
    | cons d word => rfl
  have hcolon : (isSpace ':' || isBreak ':') = false := by decide
  rw [readPlain, readPlainParts]
  simp only [hmarker, hpeek, Bool.false_or, Bool.false_eq_true, if_false, hword,
    Cursor.skip_append, hempty, hcolon, Bool.not_false, if_true, Spacing.none, Spacing.folded,
    List.nil_append]

end PlainParts

/-!
## Texts that are written plain
-/

theorem goesOn_of_hasPair {last : Char} {cs : List Char} (hprintable : cs.all isPrintable = true)
    (hbreak : cs.any isBreak = false)
    (hcolon : hasPair (fun c => c == ':') isBlankOrBreak (last :: cs) = false)
    (hmark : hasPair isBlankOrBreak (fun c => c == '#') (last :: cs) = false)
    (hend : (last :: cs).getLast? ≠ some ':') (hspace : (last :: cs).getLast? ≠ some ' ') :
    GoesOn last cs := by
  induction cs generalizing last with
  | nil =>
      constructor
      · exact fun h => hend (congrArg some h)
      · exact fun h => hspace (congrArg some h)
  | cons c cs ih =>
      rw [List.all_cons, Bool.and_eq_true] at hprintable
      rw [List.any_cons, Bool.or_eq_false_iff] at hbreak
      rw [hasPair, Bool.or_eq_false_iff] at hcolon hmark
      rw [List.getLast?_cons_cons] at hend hspace
      refine ⟨hprintable.left, hbreak.left, ?_, ?_,
        ih hprintable.right hbreak.right hcolon.right hmark.right hend hspace⟩
      · rintro rfl rfl
        cases hcolon.left
      · rintro rfl rfl
        cases hmark.left

/-- The characters can stand on a line as they are: they begin no other token, and nothing among
them ends the scalar. -/
def IsPlainText : List Char → Prop
  | [] => False
  | c :: cs =>
      isPrintable c = true ∧ isBlankOrBreak c = false ∧ startsMarked (c :: cs) = false ∧ GoesOn c cs

theorem isBlankOrBreak_of_plain {c : Char} (hprintable : isPrintable c = true)
    (hbreak : isBreak c = false) (hne : c ≠ ' ') : isBlankOrBreak c = false := by
  have hspace : isSpace c = false := by
    rw [Bool.eq_false_iff]
    exact fun h => hne (eq_space_of_isPrintable hprintable h)
  rw [isBlankOrBreak, hspace, hbreak, Bool.or_self]

theorem isPlainText_of_allowsPlain {cs : List Char} (hne : cs ≠ []) (h : allowsPlain cs = true) :
    IsPlainText cs := by
  cases cs with
  | nil => exact absurd rfl hne
  | cons c cs =>
      simp only [allowsPlain, isUnescaped, isMarked, Bool.and_eq_true, Bool.not_eq_true',
        Bool.or_eq_false_iff, List.all_cons, List.any_cons, endsWith, beginsWith, List.head?_cons,
        Option.any_some, isBlankSpace, beq_eq_false_iff_ne, ne_eq] at h
      rcases h with ⟨⟨⟨⟨⟨⟨hc, hcs⟩, -⟩, hbreak, hbreaks⟩, hfirst⟩, hlast⟩,
        ⟨⟨⟨-, hmarked⟩, hcolon⟩, hend⟩, hmark⟩
      refine ⟨hc, isBlankOrBreak_of_plain hc hbreak hfirst, hmarked,
        goesOn_of_hasPair hcs hbreaks hcolon hmark hend ?_⟩
      intro hspace
      rw [hspace] at hlast
      cases hlast

theorem goesOn_of_forall {last : Char} {cs : List Char} (hlast : last ≠ ':' ∧ last ≠ ' ')
    (hcs : ∀ c ∈ cs, isPrintable c = true ∧ isBreak c = false ∧ c ≠ ':' ∧ c ≠ ' ') :
    GoesOn last cs := by
  induction cs generalizing last with
  | nil => exact hlast
  | cons c cs ih =>
      rw [List.forall_mem_cons] at hcs
      rcases hcs with ⟨⟨hprintable, hbreak, hc⟩, hcs⟩
      exact ⟨hprintable, hbreak, fun h => absurd h hlast.left, fun h => absurd h hlast.right,
        ih hc hcs⟩

end Yaml
end TransformChain
