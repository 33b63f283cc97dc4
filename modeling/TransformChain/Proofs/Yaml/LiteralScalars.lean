import TransformChain.Proofs.Yaml.PlainScalars

/-!
# Literal blocks

What the reader of scalars makes of a text that is written line by line behind a margin.  The
reader keeps the text of the lines, the break behind the last of them and the breaks of the empty
lines that follow apart, since the header decides which of these belong to the text.
-/

namespace TransformChain
namespace Yaml

/-!
## Lines and breaks
-/

/-- What has been read of a literal block: in a line, or at the beginning of one. -/
inductive BlockState where
  | line (text : List Char)
  | breaks (text leading trailing : List Char)

namespace BlockState

def next : BlockState → Char → BlockState
  | line text, c => if isBreak c then breaks text [c] [] else line (text ++ [c])
  | breaks text leading trailing, c =>
      if isBreak c then breaks text leading (trailing ++ [c])
      else line (text ++ leading ++ trailing ++ [c])

def finish (chomping : Chomping) : BlockState → List Char
  | line text => BlockText.finish chomping ⟨text, ['\n'], [], false⟩
  | breaks text leading trailing => BlockText.finish chomping ⟨text, leading, trailing, false⟩

def whole : BlockState → List Char
  | line text => text
  | breaks text leading trailing => text ++ leading ++ trailing

def after (cs : List Char) : BlockState :=
  cs.foldl next (breaks [] [] [])

theorem whole_next (state : BlockState) (c : Char) : (state.next c).whole = state.whole ++ [c] := by
  cases state with
  | line text =>
      rw [next]
      by_cases hc : isBreak c = true
      · rw [if_pos hc]
        exact List.append_nil _
      · rw [if_neg hc]
        rfl
  | breaks text leading trailing =>
      rw [next]
      by_cases hc : isBreak c = true
      · rw [if_pos hc]
        exact (List.append_assoc _ _ _).symm
      · rw [if_neg hc]
        rfl

theorem whole_foldl (state : BlockState) (cs : List Char) :
    (cs.foldl next state).whole = state.whole ++ cs := by
  induction cs generalizing state with
  | nil => exact (List.append_nil _).symm
  | cons c cs ih => rw [List.foldl_cons, ih, whole_next, List.append_assoc, List.singleton_append]

theorem whole_after (cs : List Char) : (after cs).whole = cs :=
  whole_foldl _ cs

theorem after_concat (cs : List Char) (c : Char) : after (cs ++ [c]) = (after cs).next c := by
  rw [after, List.foldl_append]
  rfl

theorem after_line (cs : List Char) {c : Char} (hc : isBreak c = false) :
    after (cs ++ [c]) = line (cs ++ [c]) := by
  have hwhole := whole_after cs
  rw [after_concat]
  cases hstate : after cs with
  | line text =>
      rw [hstate] at hwhole
      rw [next, hc, if_neg Bool.false_ne_true, ← hwhole]
      rfl
  | breaks text leading trailing =>
      rw [hstate] at hwhole
      rw [next, hc, if_neg Bool.false_ne_true, ← hwhole]
      rfl

def chompingOf (cs : List Char) : Chomping :=
  match chompingMark cs with
  | ['-'] => .strip
  | ['+'] => .keep
  | _ => .clip

theorem finish_next_break (state : BlockState) {c : Char} (hc : isBreak c = true) :
    (state.next c).finish .keep = (state.next c).whole := by
  cases state with
  | line text =>
      rw [next, if_pos hc]
      rfl
  | breaks text leading trailing =>
      rw [next, if_pos hc]
      rfl

/-- The line breaks that the header gives to the text are those that the text ends with. -/
theorem finish_after {cs : List Char} (hne : cs ≠ []) :
    (after cs).finish (chompingOf cs) = cs := by
  cases hreverse : cs.reverse with
  | nil => exact absurd (List.reverse_eq_nil_iff.mp hreverse) hne
  | cons last before =>
      have hcs : cs = before.reverse ++ [last] := by
        rw [← List.reverse_reverse cs, hreverse, List.reverse_cons]
      cases hlast : isBreak last with
      | false =>
          have hmark : chompingOf cs = .strip := by
            simp [chompingOf, chompingMark, hreverse, hlast]
          rw [hmark, hcs, after_line _ hlast]
          rfl
      | true =>
          have hkeep : (after cs).finish .keep = cs := by
            rw [hcs, after_concat, finish_next_break _ hlast, ← after_concat, whole_after]
          cases before with
          | nil =>
              have hmark : chompingOf cs = .keep := by
                simp [chompingOf, chompingMark, hreverse, hlast]
              rw [hmark, hkeep]
          | cons previous before =>
              cases hprevious : isBreak previous with
              | true =>
                  have hmark : chompingOf cs = .keep := by
                    simp [chompingOf, chompingMark, hreverse, hlast, hprevious]
                  rw [hmark, hkeep]
              | false =>
                  have hmark : chompingOf cs = .clip := by
                    simp [chompingOf, chompingMark, hreverse, hlast, hprevious]
                  rw [hmark, hcs, after_concat, List.reverse_cons, after_line _ hprevious, next,
                    if_pos hlast]
                  rfl

end BlockState

/-!
## Breaks and margins
-/

section Breaks

variable {w m b wd i l : Nat} {breaks rest : List Char} {c : Char}

theorem readBreak_stop {k : Nat} (h : rest.head?.any isBreak = false) :
    (Cursor.mk rest i l k).readBreak = ([], ⟨rest, i, l, k⟩) := by
  cases rest with
  | nil => rfl
  | cons c rest =>
      rw [List.head?_cons, Option.any_some] at h
      simp only [Cursor.readBreak, h, Bool.false_eq_true, if_false]

theorem readBlockBreaks_break (hbreak : isBreak c = true) (hprintable : isPrintable c = true) :
    readBlockBreaks (some w) (b + 1) breaks wd ⟨c :: rest, i, l, 0⟩ =
      readBlockBreaks (some w) b (breaks ++ [c]) wd ⟨rest, i + 1, l + 1, 0⟩ := by
  have hspace : (c == ' ') = false := by
    rw [beq_eq_false_iff_ne]
    rintro rfl
    cases hbreak
  have htab : (some c == some '\t') = false := by
    rw [beq_eq_false_iff_ne]
    rintro ⟨⟩
    cases hbreak
  have hread : (Cursor.mk (c :: rest) i l 0).readBreak = ([c], ⟨rest, i + 1, l + 1, 0⟩) :=
    Cursor.readBreak_of_isPrintable hbreak hprintable
  rw [readBlockBreaks]
  simp only [List.takeWhile_cons, hspace, Bool.false_eq_true, if_false, List.length_nil,
    Nat.zero_min, Cursor.skip_eq, List.drop_zero, Nat.add_zero, Cursor.peek?, List.head?_cons, htab,
    Bool.false_and, hread, Nat.max_zero]

theorem readBlockBreaks_stop {count : Nat} (hrest : rest.head?.any isBreak = false)
    (htab : rest.head? ≠ some '\t')
    (hcount : min ((margin count ++ rest).takeWhile fun c => c == ' ').length w = count) :
    readBlockBreaks (some w) (b + 1) breaks wd ⟨margin count ++ rest, i, l, 0⟩ =
      some (breaks, max wd count, ⟨rest, i + count, l, count⟩) := by
  have hdrop : (margin count ++ rest).drop count = rest := List.drop_left' List.length_replicate
  have htab : (rest.head? == some '\t') = false := beq_eq_false_iff_ne.mpr htab
  rw [readBlockBreaks]
  simp only [Nat.sub_zero, hcount, Cursor.skip_eq, hdrop, Nat.zero_add, Cursor.peek?, htab,
    Bool.false_and, Bool.false_eq_true, if_false, readBreak_stop hrest]

theorem takeWhile_margin (m : Nat) (rest : List Char) :
    ((margin m ++ rest).takeWhile fun c => c == ' ').length =
      m + (rest.takeWhile fun c => c == ' ').length := by
  rw [List.takeWhile_append_of_pos, List.length_append, margin, List.length_replicate]
  intro c hmem
  rw [List.eq_of_mem_replicate hmem]
  rfl

theorem takeWhile_of_startsSolid (h : StartsSolid rest) :
    rest.takeWhile (fun c => c == ' ') = [] := by
  cases rest with
  | nil => rfl
  | cons c rest =>
      have hspace : (c == ' ') = false := (Bool.or_eq_false_iff.mp (isSpace_of_solid h)).left
      rw [List.takeWhile_cons, hspace]
      rfl

theorem head?_of_startsSolid (h : StartsSolid rest) :
    rest.head?.any isBreak = false ∧ rest.head? ≠ some '\t' := by
  cases rest with
  | nil => exact ⟨rfl, fun h => nomatch h⟩
  | cons c rest =>
      have hsolid : isBlankOrBreak c = false := h
      refine ⟨isBreak_of_solid hsolid, ?_⟩
      rintro ⟨⟩
      cases hsolid

theorem readBlockBreaks_end (hm : m ≤ w) (hrest : StartsSolid rest) :
    readBlockBreaks (some w) (b + 1) breaks wd ⟨margin m ++ rest, i, l, 0⟩ =
      some (breaks, max wd m, ⟨rest, i + m, l, m⟩) := by
  apply readBlockBreaks_stop (head?_of_startsSolid hrest).left (head?_of_startsSolid hrest).right
  rw [takeWhile_margin, takeWhile_of_startsSolid hrest]
  exact Nat.min_eq_left hm

theorem readBlockBreaks_line (hprintable : isPrintable c = true) (hbreak : isBreak c = false) :
    readBlockBreaks (some w) (b + 1) breaks wd ⟨margin w ++ c :: rest, i, l, 0⟩ =
      some (breaks, max wd w, ⟨c :: rest, i + w, l, w⟩) := by
  have hfirst : (c :: rest).head?.any isBreak = false := hbreak
  apply readBlockBreaks_stop hfirst
  · rintro ⟨⟩
    cases hprintable
  · rw [takeWhile_margin]
    exact Nat.min_eq_right (Nat.le_add_right w _)

/-- The first line shows the width of the margin where it does not begin with white space. -/
theorem readBlockBreaks_first (hrest : StartsSolid rest) :
    readBlockBreaks none (b + 1) breaks wd ⟨margin w ++ rest, i, l, 0⟩ =
      some (breaks, max wd w, ⟨rest, i + w, l, w⟩) := by
  have hdrop : (margin w ++ rest).drop w = rest := List.drop_left' List.length_replicate
  have htab : (rest.head? == some '\t') = false :=
    beq_eq_false_iff_ne.mpr (head?_of_startsSolid hrest).right
  rw [readBlockBreaks]
  simp only [takeWhile_margin, takeWhile_of_startsSolid hrest, List.length_nil, Nat.add_zero,
    Cursor.skip_eq, hdrop, Nat.zero_add, Cursor.peek?, htab, Bool.false_and, Bool.false_eq_true,
    if_false, readBreak_stop (head?_of_startsSolid hrest).left]

end Breaks

/-!
## Lines
-/

/-- The lines of a literal block: the margin stands in front of each one that is not empty, and a
line break behind the last one. -/
def literalLines (w : Nat) : Bool → List Char → List Char
  | below, [] => if below then [] else ['\n']
  | below, c :: cs =>
      if isBreak c then c :: literalLines w true cs
      else (if below then margin w else []) ++ c :: literalLines w false cs

def literalOn (w b : Nat) (text leading : List Char) (startsBlank : Bool) :
    Option (List Char × Nat × Cursor) → Option (BlockText × Cursor)
  | none => none
  | some (breaks, _, cursor) => readBlockLines true w b ⟨text, leading, breaks, startsBlank⟩ cursor

theorem readBlockLines_end {w b i l m : Nat} {rest : List Char} {block : BlockText} (hm : m < w) :
    readBlockLines true w (b + 1) block ⟨rest, i, l, m⟩ = some (block, ⟨rest, i, l, m⟩) := by
  have hcolumn : (m != w) = true := bne_iff_ne.mpr (Nat.ne_of_lt hm)
  rw [readBlockLines]
  cases rest with
  | nil => rfl
  | cons c rest => simp only [hcolumn, if_true]

theorem readBlockLines_line {w b i l : Nat} {line tail : List Char} {c : Char} {block : BlockText}
    (hne : line ≠ []) (hline : ∀ d ∈ line, isBreak d = false) (hbreak : isBreak c = true)
    (hprintable : isPrintable c = true) :
    ∃ startsBlank, readBlockLines true w (b + 1) block ⟨line ++ c :: tail, i, l, w⟩ =
      literalOn w b (block.text ++ block.leading ++ block.trailing ++ line) [c] startsBlank
        (readBlockBreaks (some w) (tail.length + 1) [] 0 ⟨tail, i + line.length + 1, l + 1, 0⟩) := by
  cases line with
  | nil => exact absurd rfl hne
  | cons first line =>
      have htaken : ∀ d ∈ first :: line, (!isBreak d) = true := by
        intro d hmem
        rw [hline d hmem]
        rfl
      have hstop : (c :: tail).head?.any (fun d => !isBreak d) = false := by
        rw [List.head?_cons, Option.any_some, hbreak]
        rfl
      have hread : (Cursor.mk (first :: line ++ c :: tail) i l w).readWhile (fun d => !isBreak d) =
          (first :: line, ⟨c :: tail, i + (first :: line).length, l, w + (first :: line).length⟩) :=
        Cursor.readWhile_append htaken hstop
      have hcolumn : (w != w) = false := bne_self_eq_false w
      refine ⟨isSpace first, ?_⟩
      rw [readBlockLines]
      simp only [List.cons_append, hcolumn, Bool.false_eq_true, if_false] at hread ⊢
      simp only [hread, Cursor.readBreak_of_isPrintable hbreak hprintable]
      cases readBlockBreaks (some w) (tail.length + 1) [] 0
        ⟨tail, i + (first :: line).length + 1, l + 1, 0⟩ with
      | none => rfl
      | some result => rfl

/-- The block has been read as far as the line behind it. -/
def ReadsBlock (result : Option (BlockText × Cursor)) (state : BlockState) (m : Nat)
    (rest : List Char) : Prop :=
  ∃ block i l, result = some (block, ⟨rest, i, l, m⟩) ∧
    ∀ chomping, block.finish chomping = state.finish chomping

section Lines

variable {w m : Nat} {rest cs : List Char} {c : Char}

/-- At the beginning of a line. -/
def ReadsLinesBelow (w m : Nat) (rest cs : List Char) : Prop :=
  ∀ (text leading breaks : List Char) (startsBlank : Bool) (b more wd i l : Nat),
    (literalLines w true cs).length < b →
    ReadsBlock (literalOn w b text leading startsBlank
        (readBlockBreaks (some w) ((literalLines w true cs).length + 1 + more) breaks wd
          ⟨literalLines w true cs ++ (margin m ++ rest), i, l, 0⟩))
      (cs.foldl BlockState.next (.breaks text leading breaks)) m rest

/-- In a line. -/
def ReadsInLine (w m : Nat) (rest cs : List Char) : Prop :=
  ∀ (line : List Char) (block : BlockText) (b i l : Nat), line ≠ [] →
    (∀ d ∈ line, isBreak d = false) → (literalLines w false cs).length < b →
    ReadsBlock (readBlockLines true w b block
        ⟨line ++ (literalLines w false cs ++ (margin m ++ rest)), i, l, w⟩)
      (cs.foldl BlockState.next
        (.line (block.text ++ block.leading ++ block.trailing ++ line))) m rest

theorem readsLinesBelow_nil (hm : m < w) (hrest : StartsSolid rest) :
    ReadsLinesBelow w m rest [] := by
  intro text leading breaks startsBlank b more wd i l hb
  cases b with
  | zero => cases hb
  | succ b =>
      have hlines : literalLines w true [] = [] := rfl
      rw [hlines, List.nil_append, Nat.add_right_comm,
        readBlockBreaks_end (Nat.le_of_lt hm) hrest]
      simp only [literalOn, readBlockLines_end hm]
      exact ⟨_, _, _, rfl, fun chomping => by cases chomping <;> rfl⟩

theorem ReadsLinesBelow.lineEnd (hbelow : ReadsLinesBelow w m rest cs) {line : List Char}
    (hne : line ≠ []) (hline : ∀ d ∈ line, isBreak d = false) (hbreak : isBreak c = true)
    (hprintable : isPrintable c = true) (block : BlockText) {b : Nat} (i l : Nat)
    (hb : (literalLines w true cs).length < b) :
    ReadsBlock (readBlockLines true w (b + 1) block
        ⟨line ++ c :: (literalLines w true cs ++ (margin m ++ rest)), i, l, w⟩)
      (cs.foldl BlockState.next
        (.breaks (block.text ++ block.leading ++ block.trailing ++ line) [c] [])) m rest := by
  rcases readBlockLines_line hne hline hbreak hprintable with ⟨startsBlank, hread⟩
  have hlength : (literalLines w true cs ++ (margin m ++ rest)).length + 1 =
      (literalLines w true cs).length + 1 + (margin m ++ rest).length := by
    rw [List.length_append, Nat.add_right_comm]
  rw [hread, hlength]
  exact hbelow _ [c] [] startsBlank b _ 0 _ _ hb

theorem readsInLine_nil (hbelow : ReadsLinesBelow w m rest []) : ReadsInLine w m rest [] := by
  intro line block b i l hne hline hb
  cases b with
  | zero => cases hb
  | succ b =>
      have hfeed : isBreak '\n' = true ∧ isPrintable '\n' = true := by decide
      rcases hbelow.lineEnd hne hline hfeed.left hfeed.right block i l
        (Nat.lt_of_succ_lt_succ hb) with ⟨found, j, k, hfound, hfinish⟩
      exact ⟨found, j, k, hfound, hfinish⟩

theorem readsInLine_cons (hprintable : isPrintable c = true) (hline : ReadsInLine w m rest cs)
    (hbelow : ReadsLinesBelow w m rest cs) : ReadsInLine w m rest (c :: cs) := by
  intro line block b i l hne hsame hb
  cases hbreak : isBreak c with
  | true =>
      have hlines : literalLines w false (c :: cs) = c :: literalLines w true cs := by
        rw [literalLines, if_pos hbreak]
      rw [hlines] at hb ⊢
      cases b with
      | zero => cases hb
      | succ b =>
          rw [List.foldl_cons, BlockState.next, if_pos hbreak]
          exact hbelow.lineEnd hne hsame hbreak hprintable block i l (Nat.lt_of_succ_lt_succ hb)
  | false =>
      have hlines : literalLines w false (c :: cs) = c :: literalLines w false cs := by
        rw [literalLines, hbreak, if_neg Bool.false_ne_true, if_neg Bool.false_ne_true,
          List.nil_append]
      have hlonger : ∀ d ∈ line ++ [c], isBreak d = false :=
        List.forall_mem_append.mpr ⟨hsame, List.forall_mem_singleton.mpr hbreak⟩
      rw [hlines] at hb ⊢
      have hread := hline (line ++ [c]) block b i l
        (List.append_ne_nil_of_right_ne_nil _ (List.cons_ne_nil _ _)) hlonger
        (Nat.lt_of_succ_lt hb)
      rw [List.foldl_cons, BlockState.next, hbreak, if_neg Bool.false_ne_true, List.append_assoc _ line]
      rw [List.append_assoc, List.singleton_append] at hread
      exact hread

theorem readsLinesBelow_cons (hprintable : isPrintable c = true) (hline : ReadsInLine w m rest cs)
    (hbelow : ReadsLinesBelow w m rest cs) : ReadsLinesBelow w m rest (c :: cs) := by
  intro text leading breaks startsBlank b more wd i l hb
  cases hbreak : isBreak c with
  | true =>
      have hlines : literalLines w true (c :: cs) = c :: literalLines w true cs := by
        rw [literalLines, if_pos hbreak]
      rw [hlines] at hb ⊢
      rw [List.length_cons, Nat.add_right_comm _ 1 more, List.cons_append,
        readBlockBreaks_break hbreak hprintable, List.foldl_cons, BlockState.next, if_pos hbreak]
      exact hbelow text leading (breaks ++ [c]) startsBlank b more wd (i + 1) (l + 1)
        (Nat.lt_of_succ_lt hb)
  | false =>
      have hlines : literalLines w true (c :: cs) = margin w ++ c :: literalLines w false cs := by
        rw [literalLines, hbreak, if_neg Bool.false_ne_true, if_pos rfl]
      have hless : (literalLines w false cs).length < b := by
        rw [hlines, List.length_append, List.length_cons] at hb
        omega
      have hread := hline [c] ⟨text, leading, breaks, startsBlank⟩ b (i + w) l
        (List.cons_ne_nil _ _) (List.forall_mem_singleton.mpr hbreak) hless
      rw [hlines, Nat.add_right_comm, List.append_assoc, List.cons_append,
        readBlockBreaks_line hprintable hbreak, List.foldl_cons, BlockState.next, hbreak,
        if_neg Bool.false_ne_true]
      exact hread

/-- Both loops read the rest of the text, by induction on the rest. -/
theorem reads_lines (hm : m < w) (hrest : StartsSolid rest)
    (hprintable : ∀ c ∈ cs, isPrintable c = true) :
    ReadsInLine w m rest cs ∧ ReadsLinesBelow w m rest cs := by
  induction cs with
  | nil =>
      have hbelow := readsLinesBelow_nil hm hrest
      exact ⟨readsInLine_nil hbelow, hbelow⟩
  | cons c cs ih =>
      rw [List.forall_mem_cons] at hprintable
      rcases ih hprintable.right with ⟨hline, hbelow⟩
      constructor
      · exact readsInLine_cons hprintable.left hline hbelow
      · exact readsLinesBelow_cons hprintable.left hline hbelow

theorem withMargins_eq_literalLines (w : Nat) (below : Bool) (cs : List Char) :
    withMargins w below cs ++ (if below && cs.isEmpty || endsWith isBreak cs then [] else ['\n']) =
      literalLines w below cs := by
  induction cs generalizing below with
  | nil => cases below <;> rfl
  | cons c cs ih =>
      have hend (below : Bool) : (below && (c :: cs).isEmpty || endsWith isBreak (c :: cs)) =
          (isBreak c && cs.isEmpty || endsWith isBreak cs) := by
        cases cs <;> simp [endsWith]
      rw [hend, withMargins, literalLines]
      cases hc : isBreak c with
      | true => rw [if_pos rfl, if_pos rfl, ← ih, List.cons_append]
      | false =>
          have hrest := ih false
          simp only [Bool.false_eq_true, if_false, Bool.false_and, Bool.false_or] at hrest ⊢
          cases below with
          | false => simp only [Bool.false_eq_true, if_false, List.cons_append, List.nil_append, hrest]
          | true => simp only [if_true, List.append_assoc, List.cons_append, hrest]

end Lines

/-!
## Headers
-/

theorem blockHeader?_marks (cs tail : List Char) :
    blockHeader? (marginMark cs ++ chompingMark cs ++ '\n' :: tail) =
      some (BlockState.chompingOf cs,
        if beginsWith (fun c => isBlankSpace c || isBreak c) cs then some 2 else none,
        (marginMark cs ++ chompingMark cs).length) := by
  have hmark : chompingMark cs = ['-'] ∨ chompingMark cs = ['+'] ∨ chompingMark cs = [] := by
    unfold chompingMark
    split
    case h_1 =>
      split
      · exact Or.inl rfl
      · split
        · exact Or.inr (Or.inl rfl)
        · split
          · exact Or.inr (Or.inl rfl)
          · exact Or.inr (Or.inr rfl)
    case h_2 => exact Or.inl rfl
  rw [BlockState.chompingOf, marginMark]
  cases beginsWith (fun c => isBlankSpace c || isBreak c) cs with
  | false => rcases hmark with hmark | hmark | hmark <;> rw [hmark] <;> rfl
  | true => rcases hmark with hmark | hmark | hmark <;> rw [hmark] <;> rfl

/-!
## Whole blocks
-/

section Block

variable {n w m : Nat} {rest cs tail : List Char}

theorem reads_firstLine {c : Char} (hm : m < w) (hrest : StartsSolid rest)
    (hprintable : ∀ c ∈ cs, isPrintable c = true) (hbreak : isBreak c = false)
    (breaks : List Char) (i l : Nat) :
    ReadsBlock (readBlockLines true w
        ((c :: (literalLines w false cs ++ (margin m ++ rest))).length + 1) ⟨[], [], breaks, false⟩
        ⟨c :: (literalLines w false cs ++ (margin m ++ rest)), i, l, w⟩)
      (cs.foldl BlockState.next (.line (breaks ++ [c]))) m rest := by
  have hless : (literalLines w false cs).length <
      (c :: (literalLines w false cs ++ (margin m ++ rest))).length + 1 := by
    rw [List.length_cons, List.length_append]
    omega
  exact (reads_lines hm hrest hprintable).left [c] ⟨[], [], breaks, false⟩ _ i l
    (List.cons_ne_nil _ _) (List.forall_mem_singleton.mpr hbreak) hless

theorem reads_statedLines (hm : m < w) (hrest : StartsSolid rest)
    (hprintable : ∀ c ∈ cs, isPrintable c = true) (before : List Char) (more i l : Nat) :
    ∃ breaks widest start,
      readBlockBreaks (some w) ((literalLines w true cs).length + 1 + more) before 0
          ⟨literalLines w true cs ++ (margin m ++ rest), i, l, 0⟩ = some (breaks, widest, start) ∧
        ReadsBlock (readBlockLines true w (start.rest.length + 1) ⟨[], [], breaks, false⟩ start)
          (cs.foldl BlockState.next (.breaks [] [] before)) m rest := by
  induction cs generalizing before i l with
  | nil =>
      have hlines : literalLines w true [] = [] := rfl
      rw [hlines, List.nil_append, Nat.add_right_comm,
        readBlockBreaks_end (Nat.le_of_lt hm) hrest]
      refine ⟨_, _, _, rfl, ?_⟩
      rw [readBlockLines_end hm]
      exact ⟨_, _, _, rfl, fun chomping => by cases chomping <;> rfl⟩
  | cons c cs ih =>
      rw [List.forall_mem_cons] at hprintable
      rw [List.foldl_cons, BlockState.next, literalLines]
      cases hbreak : isBreak c with
      | true =>
          rw [if_pos rfl, if_pos rfl, List.length_cons, Nat.add_right_comm _ 1 more,
            List.cons_append, readBlockBreaks_break hbreak hprintable.left]
          exact ih hprintable.right (before ++ [c]) (i + 1) (l + 1)
      | false =>
          rw [if_neg Bool.false_ne_true, if_neg Bool.false_ne_true, if_pos rfl,
            Nat.add_right_comm, List.append_assoc, List.cons_append,
            readBlockBreaks_line hprintable.left hbreak]
          exact ⟨_, _, _, rfl, reads_firstLine hm hrest hprintable.right hbreak before _ _⟩

theorem readWhile_lineFeed {i l k : Nat} :
    (Cursor.mk ('\n' :: tail) i l k).readWhile isSpace = ([], ⟨'\n' :: tail, i, l, k⟩) := rfl

theorem nextLine_lineFeed {i l k : Nat} :
    (Cursor.mk ('\n' :: tail) i l k).nextLine = ⟨tail, i + 1, l + 1, 0⟩ := rfl

def blockBehind (chomping : Chomping) (n : Nat) (stated : Option Nat) :
    Option (List Char × Nat × Cursor) → Option (List Char × Cursor)
  | none => none
  | some (breaks, widest, start) =>
      (readBlockLines true (stated.getD (max (max widest (n + 1)) 1)) (start.rest.length + 1)
        ⟨[], [], breaks, false⟩ start).map fun found => (found.1.finish chomping, found.2)

theorem readBlock_header (chomping : Chomping) (increment : Option Nat) {header : List Char}
    (hheader : blockHeader? (header ++ '\n' :: tail) = some (chomping, increment, header.length))
    (i l k : Nat) :
    ∃ j, readBlock true (Int.ofNat n) ⟨'|' :: (header ++ '\n' :: tail), i, l, k⟩ =
      blockBehind chomping n (increment.map fun width => n + width)
        (readBlockBreaks (increment.map fun width => n + width) (tail.length + 1) [] 0
          ⟨tail, j, l + 1, 0⟩) := by
  have hmark (j k : Nat) : ((Cursor.mk ('\n' :: tail) j l k).peek? == some '#') = false := rfl
  have hblank : atBreak ('\n' :: tail) = true := rfl
  have hparent : (Int.ofNat n + 1).toNat = n + 1 := rfl
  have hnonneg : 0 ≤ Int.ofNat n := Int.natCast_nonneg n
  have hwidth : (Int.ofNat n).toNat = n := rfl
  exists i + 1 + header.length + 1
  rw [readBlock]
  simp only [Cursor.skip_eq, List.drop_succ_cons, List.drop_zero, hheader, List.drop_left,
    readWhile_lineFeed, hmark, Bool.false_eq_true, if_false, hblank, Bool.not_true,
    nextLine_lineFeed, hnonneg, if_true, hparent, hwidth]
  cases readBlockBreaks (increment.map fun width => n + width) (tail.length + 1) [] 0
      ⟨tail, i + 1 + header.length + 1, l + 1, 0⟩ with
  | none => rfl
  | some found =>
      rcases found with ⟨breaks, widest, start⟩
      cases increment with
      | none =>
        simp only [blockBehind, Option.map_none, Option.getD_none]
        cases readBlockLines true (max (max widest (n + 1)) 1) (start.rest.length + 1)
          ⟨[], [], breaks, false⟩ start <;> rfl
      | some width =>
        simp only [blockBehind, Option.map_some, Option.getD_some]
        cases readBlockLines true (n + width) (start.rest.length + 1)
          ⟨[], [], breaks, false⟩ start <;> rfl

theorem ReadsBlock.finished {result : Option (BlockText × Cursor)} {state : BlockState}
    (h : ReadsBlock result state m rest) (chomping : Chomping) :
    ∃ i l, (result.map fun found => (found.1.finish chomping, found.2)) =
      some (state.finish chomping, ⟨rest, i, l, m⟩) := by
  rcases h with ⟨block, i, l, rfl, hfinish⟩
  exact ⟨i, l, congrArg some (Prod.ext (hfinish chomping) rfl)⟩

/-- A literal block inside a block of the given indentation is read back, up to the line behind
it. -/
theorem readBlock_literalBlock (hm : m < n + 2) (hrest : StartsSolid rest) (hne : cs ≠ [])
    (hprintable : ∀ c ∈ cs, isPrintable c = true) (i l k : Nat) :
    ∃ j below, readBlock true (Int.ofNat n)
        ⟨literalBlock (n + 2) cs ++ ((if endsWith isBreak cs then [] else ['\n']) ++
          (margin m ++ rest)), i, l, k⟩ = some (cs, ⟨rest, j, below, m⟩) := by
  have hempty : (true && cs.isEmpty || endsWith isBreak cs) = endsWith isBreak cs := by
    cases cs with
    | nil => exact absurd rfl hne
    | cons c cs => rfl
  have hlines := withMargins_eq_literalLines (n + 2) true cs
  rw [hempty] at hlines
  have htext : literalBlock (n + 2) cs ++ ((if endsWith isBreak cs then [] else ['\n']) ++
      (margin m ++ rest)) =
        '|' :: (marginMark cs ++ chompingMark cs ++
          '\n' :: (literalLines (n + 2) true cs ++ (margin m ++ rest))) := by
    rw [← hlines]
    simp [literalBlock]
  have hfinish := BlockState.finish_after hne
  rcases readBlock_header (n := n) _ _
    (blockHeader?_marks cs (literalLines (n + 2) true cs ++ (margin m ++ rest))) i l k with ⟨j, hread⟩
  rw [htext, hread]
  cases hfirst : beginsWith (fun c => isBlankSpace c || isBreak c) cs with
  | true =>
      have hlength : (literalLines (n + 2) true cs ++ (margin m ++ rest)).length + 1 =
          (literalLines (n + 2) true cs).length + 1 + (margin m ++ rest).length := by
        rw [List.length_append, Nat.add_right_comm]
      rcases reads_statedLines hm hrest hprintable [] (margin m ++ rest).length j (l + 1) with
        ⟨breaks, widest, start, hbreaks, hblock⟩
      rcases hblock.finished (BlockState.chompingOf cs) with ⟨after, below, hdone⟩
      exists after, below
      rw [if_pos rfl, Option.map_some, hlength, hbreaks, blockBehind, Option.getD_some, hdone]
      exact congrArg (fun text => some (text, Cursor.mk rest after below m)) hfinish
  | false =>
      cases cs with
      | nil => exact absurd rfl hne
      | cons c cs =>
          rw [List.forall_mem_cons] at hprintable
          rw [beginsWith, List.head?_cons, Option.any_some, Bool.or_eq_false_iff] at hfirst
          have hspace : c ≠ ' ' := beq_eq_false_iff_ne.mp hfirst.left
          have hsolid := isBlankOrBreak_of_plain hprintable.left hfirst.right hspace
          have hstart : StartsSolid (c :: (literalLines (n + 2) false cs ++ (margin m ++ rest))) :=
            hsolid
          have hline : literalLines (n + 2) true (c :: cs) ++ (margin m ++ rest) =
              margin (n + 2) ++ c :: (literalLines (n + 2) false cs ++ (margin m ++ rest)) := by
            rw [literalLines, hfirst.right, if_neg Bool.false_ne_true, if_pos rfl,
              List.append_assoc, List.cons_append]
          have hwidth : max (max (max 0 (n + 2)) (n + 1)) 1 = n + 2 := by omega
          have hblock := reads_firstLine hm hrest hprintable.right hfirst.right [] (j + (n + 2))
            (l + 1)
          rcases hblock.finished (BlockState.chompingOf (c :: cs)) with ⟨after, below, hdone⟩
          have hstate : (c :: cs).foldl BlockState.next (.breaks [] [] []) =
              cs.foldl BlockState.next (.line ([] ++ [c])) := by
            rw [List.foldl_cons, BlockState.next, hfirst.right]
            rfl
          rw [BlockState.after, hstate] at hfinish
          exists after, below
          rw [if_neg Bool.false_ne_true, Option.map_none, hline, readBlockBreaks_first hstart,
            blockBehind, Option.getD_none, hwidth, hdone]
          exact congrArg (fun text => some (text, Cursor.mk rest after below m)) hfinish

end Block

end Yaml
end TransformChain
