import TransformChain.Proofs.Text.Identifiers
import TransformChain.Proofs.Yaml.LiteralScalars
import TransformChain.Proofs.Yaml.QuotedScalars
import TransformChain.Yaml.Token

/-!
# Scanning block documents

What the scanner makes of the lines of a block document.  The scanner is followed from one place
where a token begins to the next, outside all flow collections; there its state is given by the
open blocks and the tokens so far.
-/

namespace TransformChain
namespace Yaml

theorem insertIdxIfInBounds_toArray {α : Type} (front back : List α) (a : α) :
    (front ++ back).toArray.insertIdxIfInBounds front.length a = (front ++ a :: back).toArray := by
  have hinsert : (front ++ back).insertIdx front.length a = front ++ a :: back := by
    induction front with
    | nil => rfl
    | cons b front ih => exact congrArg (List.cons b) ih
  simp [Array.insertIdxIfInBounds, hinsert]

/-- A token begins here, or the document ends. -/
def StartsToken : List Char → Prop
  | [] => True
  | c :: _ => isBlankOrBreak c = false ∧ c ≠ '#'

theorem StartsToken.solid {rest : List Char} (h : StartsToken rest) : StartsSolid rest := by
  cases rest with
  | nil => trivial
  | cons c rest => exact h.left

namespace Scanner

/-!
## Runs
-/

/-- The rest of the document gives the tokens, whatever budget suffices for it. -/
def Scans (s : Scanner) (tokens : List Token) : Prop :=
  ∀ b, s.cursor.rest.length < b → run b s = some tokens

structure Blocks where
  indent : Int
  outer : List Int

/-- A place outside all flow collections where no key has begun. -/
def place (blocks : Blocks) (allowed : Bool) (tokens : List Token) (cursor : Cursor) : Scanner :=
  ⟨cursor, 0, blocks.indent, blocks.outer, [none], allowed, tokens.toArray⟩

section Runs

variable {s t w : Scanner} {tokens : List Token} {c : Char} {rest : List Char}

theorem toToken_of_startsToken (budget : Nat) (h : StartsToken s.cursor.rest) :
    toToken (budget + 1) s = s := by
  rcases s with ⟨⟨rest, index, line, column⟩, flow, indent, indents, keys, allowed, found⟩
  rw [toToken]
  cases rest with
  | nil => simp [Cursor.readWhile, Cursor.peek?]
  | cons c rest =>
      have hsolid : isBlankOrBreak c = false := h.left
      have hspace : (c == ' ') = false := (Bool.or_eq_false_iff.mp (isSpace_of_solid hsolid)).left
      have htab : (c == '\t') = false := (Bool.or_eq_false_iff.mp (isSpace_of_solid hsolid)).right
      have hmark : c ≠ '#' := h.right
      simp [Cursor.readWhile, Cursor.peek?, hspace, htab, hmark, isBreak_of_solid hsolid]

theorem Scans.of_toToken (hpassed : toToken (s.cursor.rest.length + 1) s = t)
    (hstart : StartsToken t.cursor.rest) (hless : t.cursor.rest.length ≤ s.cursor.rest.length)
    (h : Scans t tokens) : Scans s tokens := by
  intro b hb
  have hrun := h b (Nat.lt_of_le_of_lt hless hb)
  cases b with
  | zero => cases hb
  | succ b =>
      rw [run] at hrun ⊢
      rw [toToken_of_startsToken _ hstart] at hrun
      rw [hpassed]
      exact hrun

def resume (b : Nat) (s : Scanner) : Option (List Token) :=
  match s.cursor.rest with
  | [] =>
      match (s.closeBlocks (-1)).forgetKey with
      | none => none
      | some last => some last.tokens.toList
  | c :: rest =>
      match s.next c rest with
      | none => none
      | some w => run b w

theorem run_of_startsToken (b : Nat) (hstart : StartsToken s.cursor.rest)
    (hfresh : s.dropStale = some s) :
    run (b + 1) s = resume b (s.closeBlocks (Int.ofNat s.cursor.column)) := by
  rw [run, toToken_of_startsToken _ hstart]
  simp only [hfresh]
  rfl

/-- A token begins here, no block ends, and the token leads to the next place. -/
theorem Scans.of_next (hrest : s.cursor.rest = c :: rest) (hstart : StartsToken s.cursor.rest)
    (hfresh : s.dropStale = some s) (hopen : s.closeBlocks (Int.ofNat s.cursor.column) = s)
    (hnext : s.next c rest = some w) (hless : w.cursor.rest.length ≤ rest.length)
    (h : Scans w tokens) : Scans s tokens := by
  intro b hb
  cases b with
  | zero => cases hb
  | succ b =>
      rw [hrest, List.length_cons] at hb
      rw [run_of_startsToken b hstart hfresh, hopen, resume]
      simp only [hrest, hnext]
      exact h b (Nat.lt_of_le_of_lt hless (Nat.lt_of_succ_lt_succ hb))

end Runs

/-!
## Blocks
-/

section Places

variable {blocks : Blocks} {allowed : Bool} {found tokens : List Token} {cursor : Cursor}

theorem dropStale_place :
    (place blocks allowed found cursor).dropStale = some (place blocks allowed found cursor) := by
  simp [dropStale, place]

theorem closeFrom_of_le {s : Scanner} {column : Int} (h : s.indent ≤ column) (indents : List Int) :
    closeFrom column s indents = { s with indents := indents } := by
  cases indents with
  | nil => rfl
  | cons outer rest => rw [closeFrom, if_neg (Int.not_lt.mpr h)]

theorem closeBlocks_of_le {s : Scanner} {column : Int} (h : s.indent ≤ column) :
    s.closeBlocks column = s := by
  unfold closeBlocks
  rw [closeFrom_of_le h]
  exact ite_self _

theorem closeFrom_indents (s : Scanner) (column : Int) (kept indents : List Int) :
    closeFrom column { s with indents := kept } indents = closeFrom column s indents := by
  induction indents generalizing s kept with
  | nil => rfl
  | cons outer rest ih =>
      rw [closeFrom, closeFrom]
      by_cases h : column < s.indent
      · rw [if_pos h, if_pos h]
        exact (ih _ _).symm
      · rw [if_neg h, if_neg h]

theorem closeBlocks_place {indent outer column : Int} {rest : List Int} (h : column < indent) :
    (place ⟨indent, outer :: rest⟩ allowed found cursor).closeBlocks column =
      (place ⟨outer, rest⟩ allowed (found ++ [.blockEnd]) cursor).closeBlocks column := by
  have hflow : (0 != 0) = false := rfl
  simp only [closeBlocks, inFlow, place, hflow, Bool.false_eq_true, if_false, closeFrom, if_pos h,
    push, List.push_toArray]
  exact closeFrom_indents (place ⟨outer, rest⟩ allowed (found ++ [.blockEnd]) cursor) column
    (outer :: rest) rest

/-- A block ends where a token begins to the left of it. -/
theorem Scans.close {indent outer : Int} {rest : List Int} (hstart : StartsToken cursor.rest)
    (hcolumn : Int.ofNat cursor.column < indent)
    (h : Scans (place ⟨outer, rest⟩ allowed (found ++ [.blockEnd]) cursor) tokens) :
    Scans (place ⟨indent, outer :: rest⟩ allowed found cursor) tokens := by
  intro b hb
  have hrun := h b hb
  cases b with
  | zero => cases hb
  | succ b =>
      rw [run_of_startsToken b hstart dropStale_place] at hrun ⊢
      exact (congrArg (resume b) (closeBlocks_place hcolumn)).trans hrun

theorem scans_end {i l : Nat} :
    Scans (place ⟨0, [-1]⟩ allowed found ⟨[], i, l, 0⟩) (found ++ [.blockEnd]) := by
  intro b hb
  cases b with
  | zero => cases hb
  | succ b =>
      have hopen : (place ⟨0, [-1]⟩ allowed found ⟨[], i, l, 0⟩).closeBlocks (Int.ofNat 0) =
          place ⟨0, [-1]⟩ allowed found ⟨[], i, l, 0⟩ := closeBlocks_of_le (Int.le_refl 0)
      have hclose : (place ⟨0, [-1]⟩ allowed found ⟨[], i, l, 0⟩).closeBlocks (-1) =
          place ⟨-1, []⟩ allowed (found ++ [.blockEnd]) ⟨[], i, l, 0⟩ := by
        rw [closeBlocks_place (by decide)]
        exact closeBlocks_of_le (Int.le_refl (-1))
      have hstart : StartsToken
          (place ⟨0, [-1]⟩ allowed found ⟨[], i, l, 0⟩).cursor.rest := trivial
      rw [run_of_startsToken b hstart dropStale_place, resume]
      simp only [place] at hopen hclose ⊢
      rw [hopen, hclose]
      simp [forgetKey]

/-!
### White space
-/

theorem toToken_margin (budget m i l k : Nat) {rest : List Char} (hstart : StartsToken rest) :
    toToken (budget + 1) (place blocks allowed found ⟨margin m ++ rest, i, l, k⟩) =
      place blocks allowed found ⟨rest, i + m, l, k + m⟩ := by
  have hlength : (margin m).length = m := List.length_replicate
  have hspaces : ∀ c ∈ margin m,
      (c == ' ' || ((place blocks allowed found ⟨margin m ++ rest, i, l, k⟩).inFlow ||
        !(place blocks allowed found ⟨margin m ++ rest, i, l, k⟩).keyAllowed) && c == '\t') = true := by
    intro c hmem
    rw [List.eq_of_mem_replicate hmem]
    rfl
  have hstop : rest.head?.any (fun c =>
      c == ' ' || ((place blocks allowed found ⟨margin m ++ rest, i, l, k⟩).inFlow ||
        !(place blocks allowed found ⟨margin m ++ rest, i, l, k⟩).keyAllowed) && c == '\t') = false := by
    cases rest with
    | nil => rfl
    | cons c rest =>
        have hspace := Bool.or_eq_false_iff.mp (isSpace_of_solid hstart.left)
        rw [List.head?_cons, Option.any_some, hspace.left, hspace.right, Bool.and_false]
        rfl
  have hread := Cursor.readWhile_append (i := i) (l := l) (k := k) hspaces hstop
  rw [hlength] at hread
  rw [toToken]
  simp only [place] at hread ⊢
  simp only [hread]
  cases rest with
  | nil => simp [Cursor.peek?]
  | cons c rest =>
      have hmark : c ≠ '#' := hstart.right
      simp [Cursor.peek?, hmark, isBreak_of_solid hstart.left]

theorem toToken_lineEnd (budget m i l k : Nat) {rest : List Char} (hstart : StartsToken rest) :
    toToken (budget + 2) (place blocks allowed found ⟨'\n' :: (margin m ++ rest), i, l, k⟩) =
      place blocks true found ⟨rest, i + 1 + m, l + 1, m⟩ := by
  have hnext : toToken (budget + 2) (place blocks allowed found ⟨'\n' :: (margin m ++ rest), i, l, k⟩) =
      toToken (budget + 1) (place blocks true found ⟨margin m ++ rest, i + 1, l + 1, 0⟩) := by
    rw [toToken]
    cases allowed <;> rfl
  rw [hnext, toToken_margin _ _ _ _ _ hstart, Nat.zero_add]

theorem Scans.of_space {i l k : Nat} {rest : List Char} (hstart : StartsToken rest)
    (h : Scans (place blocks allowed found ⟨rest, i + 1, l, k + 1⟩) tokens) :
    Scans (place blocks allowed found ⟨' ' :: rest, i, l, k⟩) tokens :=
  Scans.of_toToken (toToken_margin _ 1 i l k hstart) hstart (Nat.le_succ _) h

theorem Scans.of_lineEnd {m i l k : Nat} {rest : List Char} (hstart : StartsToken rest)
    (h : Scans (place blocks true found ⟨rest, i + 1 + m, l + 1, m⟩) tokens) :
    Scans (place blocks allowed found ⟨'\n' :: (margin m ++ rest), i, l, k⟩) tokens := by
  refine Scans.of_toToken (toToken_lineEnd (margin m ++ rest).length m i l k hstart) hstart ?_ h
  simp only [place, List.length_cons, List.length_append]
  omega

/-!
### Tokens by their first character
-/

theorem atMarker_of_ne {i l k : Nat} {c : Char} {rest : List Char} (hdash : c ≠ '-')
    (hpoint : c ≠ '.') : (Cursor.mk (c :: rest) i l k).atMarker = false := by
  have hrest : ∀ cs, c :: rest ≠ '-' :: cs ∧ c :: rest ≠ '.' :: cs := fun cs =>
    ⟨fun h => hdash (List.cons.inj h).left, fun h => hpoint (List.cons.inj h).left⟩
  unfold Cursor.atMarker
  split
  case h_1 heq => exact absurd heq (hrest _).left
  case h_2 heq => exact absurd heq (hrest _).right
  case h_3 => exact Bool.and_false _

theorem startsPlain_of_unmarked {c : Char} {rest : List Char} (hsolid : isBlankOrBreak c = false)
    (hmark : leadingMarks.contains c = false)
    (hblank : c = '-' ∨ c = '?' ∨ c = ':' → atBlank rest = false) :
    startsPlain false c rest = true := by
  have hindicators : ∀ d ∈ indicators,
      (d == '-' || d == '?' || d == ':' || leadingMarks.contains d) = true :=
    List.all_eq_true.mp (by decide)
  by_cases hsign : c = '-' ∨ c = '?' ∨ c = ':'
  · have hrest := hblank hsign
    rcases hsign with rfl | rfl | rfl
    · cases rest with
      | nil => cases hrest
      | cons d rest =>
          have hspace : isSpace d = false := (Bool.or_eq_false_iff.mp hrest).left
          simp [startsPlain, hspace]
    · simp [startsPlain, hrest]
    · simp [startsPlain, hrest]
  · have hcontains : indicators.contains c = false := by
      rw [Bool.eq_false_iff]
      intro h
      have hc := hindicators c (List.contains_iff_mem.mp h)
      rw [hmark, Bool.or_false, Bool.or_eq_true, Bool.or_eq_true, beq_iff_eq, beq_iff_eq,
        beq_iff_eq, or_assoc] at hc
      exact hsign hc
    rw [startsPlain, hcontains, isSpace_of_solid hsolid, isBreak_of_solid hsolid]
    rfl

/-- A character that begins no other token begins a plain scalar. -/
theorem next_plain {s : Scanner} {c : Char} {rest : List Char} (hflow : s.flow = 0)
    (hmarker : s.cursor.atMarker = false) (hsolid : isBlankOrBreak c = false)
    (hmark : leadingMarks.contains c = false)
    (hblank : c = '-' ∨ c = '?' ∨ c = ':' → atBlank rest = false) :
    s.next c rest = s.plainScalar := by
  have hne : ∀ d ∈ leadingMarks, (c == d) = false := by
    intro d hmem
    rw [beq_eq_false_iff_ne]
    rintro rfl
    rw [List.contains_iff_mem.mpr hmem] at hmark
    cases hmark
  have hinFlow : s.inFlow = false := by
    rw [inFlow, hflow]
    rfl
  have hindicator (d : Char) (hd : c = d → atBlank rest = false) :
      (c == d && atBlank rest) = false := by
    by_cases h : c = d
    · rw [hd h, Bool.and_false]
    · rw [beq_eq_false_iff_ne.mpr h, Bool.false_and]
  have hdash := hindicator '-' fun h => hblank (Or.inl h)
  have hquestion := hindicator '?' fun h => hblank (Or.inr (Or.inl h))
  have hcolon := hindicator ':' fun h => hblank (Or.inr (Or.inr h))
  have hstarts := startsPlain_of_unmarked hsolid hmark hblank
  unfold next
  simp only [hne '%' (by decide), hne '[' (by decide), hne '\x7b' (by decide), hne ']' (by decide),
    hne '\x7d' (by decide), hne ',' (by decide), hne '*' (by decide), hne '&' (by decide),
    hne '!' (by decide), hne '|' (by decide), hne '>' (by decide), hne '\'' (by decide),
    hne '"' (by decide), hmarker, hinFlow, hdash, hquestion, hcolon, hstarts, Bool.and_false,
    Bool.false_and, Bool.false_or, Bool.false_eq_true, if_false, if_true]

theorem plainScalar_of_readPlain {s t : Scanner} {text : List Char} {crossed : Bool}
    {after : Cursor} (hmark : s.markKey = some t) (hflow : t.flow = 0)
    (hread : readPlain false (t.indent + 1) t.cursor = some (text, crossed, after)) :
    s.plainScalar =
      some { (t.allowKey crossed).push (.scalar true (String.ofList text)) with cursor := after } := by
  have hinFlow : t.inFlow = false := by
    rw [inFlow, hflow]
    rfl
  rw [plainScalar, hmark]
  simp only [hinFlow, hread]

/-!
### Keys
-/

/-- A word that can stand as a key without quotes. -/
structure IsKey (key : String) : Prop where
  word : Text.isIdentifier key = true
  named : readsAsText key = true
  short : key.toList.length ≤ keyLimit

theorem solid_of_isIdentifierChar {c : Char} (h : Text.isIdentifierChar c = true) :
    isBlankOrBreak c = false := by
  have hcode := Text.toNat_of_isIdentifierChar h
  have hne (d : Char) (hd : Text.isIdentifierChar d = false) : (c == d) = false := by
    rw [beq_eq_false_iff_ne]
    rintro rfl
    rw [hd] at h
    cases h
  have hcodes (n : Nat) (hn : n < 48 ∨ 122 < n) : (c.toNat == n) = false := by
    rw [beq_eq_false_iff_ne]
    omega
  rw [isBlankOrBreak, isSpace, isBreak, hne ' ' (by decide), hne '\t' (by decide),
    hne '\n' (by decide), hne '\r' (by decide), hcodes 0x85 (by decide), hcodes 0x2028 (by decide),
    hcodes 0x2029 (by decide)]
  rfl

theorem ne_of_isIdentifierChar {c d : Char} (h : Text.isIdentifierChar c = true)
    (hd : Text.isIdentifierChar d = false) : c ≠ d := by
  rintro rfl
  rw [hd] at h
  cases h

theorem leadingMarks_of_isIdentifierChar {c : Char} (h : Text.isIdentifierChar c = true) :
    leadingMarks.contains c = false := by
  have hmarks : ∀ d ∈ leadingMarks, (!Text.isIdentifierChar d) = true :=
    List.all_eq_true.mp (by decide)
  rw [Bool.eq_false_iff]
  intro hmem
  have hc := hmarks c (List.contains_iff_mem.mp hmem)
  rw [h] at hc
  cases hc

/-- The place behind a key, where the key is remembered. -/
def behindKey (blocks : Blocks) (found : List Token) (key : String) (i l k : Nat) (rest : List Char) :
    Scanner :=
  { cursor := ⟨rest, i + key.toList.length, l, k + key.toList.length⟩
    flow := 0
    indent := blocks.indent
    indents := blocks.outer
    keys := [some ⟨blocks.indent == Int.ofNat k, found.length, i, l, k⟩]
    keyAllowed := false
    tokens := (found ++ [Token.scalar true key]).toArray }

theorem next_key {key : String} (hkey : IsKey key) {rest : List Char} (hrest : atBlank rest = true)
    (i l k : Nat) :
    ∃ c cs, key.toList = c :: cs ∧
      (place blocks true found ⟨key.toList ++ ':' :: rest, i, l, k⟩).next c (cs ++ ':' :: rest) =
        some (behindKey blocks found key i l k (':' :: rest)) := by
  rcases (Text.isIdentifier_iff key).mp hkey.word with ⟨c, cs, hlist, hfirst, hothers⟩
  have hword (d : Char) (hmem : d ∈ key.toList) : Text.isIdentifierChar d = true :=
    Text.isIdentifierChar_of_mem hkey.word hmem
  have hc : Text.isIdentifierChar c = true := hword c (by rw [hlist]; exact List.mem_cons_self)
  have hdash := ne_of_isIdentifierChar (d := '-') hc (by decide)
  have hpoint := ne_of_isIdentifierChar (d := '.') hc (by decide)
  have hmarker :
      (place blocks true found ⟨key.toList ++ ':' :: rest, i, l, k⟩).cursor.atMarker = false := by
    rw [hlist]
    exact atMarker_of_ne hdash hpoint
  refine ⟨c, cs, hlist, ?_⟩
  rw [next_plain rfl hmarker (solid_of_isIdentifierChar hc) (leadingMarks_of_isIdentifierChar hc)]
  · have hne : key.toList ≠ [] := by
      rw [hlist]
      exact List.cons_ne_nil _ _
    have hhead : key.toList.head? ≠ some '#' := by
      rw [hlist]
      exact fun h => ne_of_isIdentifierChar hc (by decide) (Option.some.inj h)
    have hlast : key.toList.getLast? ≠ some ':' := fun h =>
      ne_of_isIdentifierChar (hword _ (List.mem_of_getLast? h)) (by decide) rfl
    have hread : readPlain false (blocks.indent + 1) ⟨key.toList ++ ':' :: rest, i, l, k⟩ =
        some (key.toList, false, ⟨':' :: rest, i + key.toList.length, l, k + key.toList.length⟩) :=
      readPlain_key hmarker hne (fun d hmem => solid_of_isIdentifierChar (hword d hmem)) hhead hlast
        hrest _
    have hmark : (place blocks true found ⟨key.toList ++ ':' :: rest, i, l, k⟩).markKey =
        some { place blocks true found ⟨key.toList ++ ':' :: rest, i, l, k⟩ with
          keys := [some ⟨blocks.indent == Int.ofNat k, found.length, i, l, k⟩] } := rfl
    rw [plainScalar_of_readPlain hmark rfl hread]
    simp only [place, behindKey, allowKey, push, List.push_toArray, String.ofList_toList]
  · rintro (h | h | h)
    · exact absurd h hdash
    · exact absurd h (ne_of_isIdentifierChar hc (by decide))
    · exact absurd h (ne_of_isIdentifierChar hc (by decide))

theorem dropStale_behindKey {key : String} (hkey : IsKey key) (i l k : Nat) (rest : List Char) :
    (behindKey blocks found key i l k rest).dropStale =
      some (behindKey blocks found key i l k rest) := by
  have hline : ¬l < l := Nat.lt_irrefl l
  have hnear : ¬i + keyLimit < i + key.toList.length := by
    have := hkey.short
    omega
  simp [dropStale, behindKey, isStale, hnear]

theorem next_colon {s : Scanner} {rest : List Char} (hmarker : s.cursor.atMarker = false)
    (hrest : atBlank rest = true) : s.next ':' rest = s.value := by
  simp [next, hmarker, hrest]

/-- The open blocks where a key stands in the column: a new one begins there unless one is open. -/
def Blocks.entered (blocks : Blocks) (k : Nat) : Blocks :=
  if Int.ofNat k ≤ blocks.indent then blocks else ⟨Int.ofNat k, blocks.indent :: blocks.outer⟩

def Blocks.entering (blocks : Blocks) (k : Nat) : List Token :=
  if Int.ofNat k ≤ blocks.indent then [] else [.blockMappingStart]

theorem value_behindKey (key : String) (i l k : Nat) (rest : List Char) :
    (behindKey blocks found key i l k (':' :: rest)).value =
      some (place (blocks.entered k) false
        (found ++ blocks.entering k ++ [.key, .scalar true key, .value])
        ⟨rest, i + key.toList.length + 1, l, k + key.toList.length + 1⟩) := by
  have hflow : (0 != 0) = false := rfl
  simp only [value, behindKey, openBlock, inFlow, hflow, Bool.false_or, Blocks.entered,
    Blocks.entering]
  by_cases h : Int.ofNat k ≤ blocks.indent
  · simp only [h, decide_true, if_true, allowKey, take, push, place, Cursor.skip_eq,
      insertIdxIfInBounds_toArray, List.push_toArray, List.drop_succ_cons, List.drop_zero,
      List.append_assoc, List.cons_append, List.nil_append]
  · simp only [h, decide_false, Bool.false_eq_true, if_false, allowKey, take, push, place,
      Cursor.skip_eq, insertIdxIfInBounds_toArray, List.push_toArray, List.drop_succ_cons,
      List.drop_zero, List.append_assoc, List.cons_append, List.nil_append]

theorem startsToken_key {key : String} (hkey : IsKey key) (rest : List Char) :
    StartsToken (key.toList ++ rest) := by
  rcases (Text.isIdentifier_iff key).mp hkey.word with ⟨c, cs, hlist, -, -⟩
  have hc : Text.isIdentifierChar c = true :=
    Text.isIdentifierChar_of_mem hkey.word (by rw [hlist]; exact List.mem_cons_self)
  rw [hlist]
  exact ⟨solid_of_isIdentifierChar hc, ne_of_isIdentifierChar hc (by decide)⟩

/-- A key with its colon, where the block of the key is open or one can begin. -/
theorem Scans.of_key {key : String} (hkey : IsKey key) {rest : List Char}
    (hrest : atBlank rest = true) {i l k : Nat} (hindent : blocks.indent ≤ Int.ofNat k)
    (h : Scans (place (blocks.entered k) false
      (found ++ blocks.entering k ++ [.key, .scalar true key, .value])
      ⟨rest, i + key.toList.length + 1, l, k + key.toList.length + 1⟩) tokens) :
    Scans (place blocks true found ⟨key.toList ++ ':' :: rest, i, l, k⟩) tokens := by
  obtain ⟨c, cs, hlist, hnext⟩ : ∃ c cs, key.toList = c :: cs ∧
      (place blocks true found ⟨key.toList ++ ':' :: rest, i, l, k⟩).next c (cs ++ ':' :: rest) =
        some (behindKey blocks found key i l k (':' :: rest)) := next_key hkey hrest i l k
  have hcolon : Scans (behindKey blocks found key i l k (':' :: rest)) tokens := by
    have hlonger : blocks.indent ≤ Int.ofNat (k + key.toList.length) :=
      Int.le_trans hindent (Int.ofNat_le.mpr (Nat.le_add_right k _))
    refine Scans.of_next rfl ⟨by decide, by decide⟩ (dropStale_behindKey hkey i l k _)
      (closeBlocks_of_le hlonger) ?_ (Nat.le_refl _) h
    rw [next_colon (atMarker_of_ne (by decide) (by decide)) hrest]
    exact value_behindKey key i l k rest
  refine Scans.of_next (by rw [place, hlist]; rfl) (startsToken_key hkey _) dropStale_place
    (closeBlocks_of_le hindent) hnext ?_ hcolon
  simp only [behindKey, List.length_cons, List.length_append]
  omega

/-!
### Dashes
-/

/-- A dash in the column of the open block, whose items need no indentation. -/
theorem Scans.of_dash {rest : List Char} {i l k : Nat} (hindent : blocks.indent = Int.ofNat k)
    (h : Scans (place blocks true (found ++ [.blockEntry]) ⟨' ' :: rest, i + 1, l, k + 1⟩) tokens) :
    Scans (place blocks true found ⟨'-' :: ' ' :: rest, i, l, k⟩) tokens := by
  have hmarker : (Cursor.mk ('-' :: ' ' :: rest) i l k).atMarker = false := Bool.and_false _
  have hnext : (place blocks true found ⟨'-' :: ' ' :: rest, i, l, k⟩).next '-' (' ' :: rest) =
      (place blocks true found ⟨'-' :: ' ' :: rest, i, l, k⟩).blockEntry := by
    have hblank : atBlank (' ' :: rest) = true := rfl
    have hsame : (place blocks true found ⟨'-' :: ' ' :: rest, i, l, k⟩).cursor.atMarker = false :=
      hmarker
    simp [next, hsame, hblank]
  refine Scans.of_next rfl ⟨by decide, by decide⟩ dropStale_place
    (closeBlocks_of_le (Int.le_of_eq hindent)) ?_ (Nat.le_refl _) h
  rw [hnext]
  have hflow : (0 != 0) = false := rfl
  have hopen : Int.ofNat k ≤ blocks.indent := Int.le_of_eq hindent.symm
  simp only [blockEntry, place, inFlow, hflow, Bool.not_true, Bool.and_false, Bool.false_eq_true,
    if_false, openBlock, hopen, decide_true, Bool.or_true, if_true, forgetKey, allowKey, take, push,
    Cursor.skip_eq, List.push_toArray, List.drop_succ_cons, List.drop_zero]

/-!
### Scalars
-/

/-- In front of a text that stands behind a key, the scanner passes the text as one token and goes
on at the next line, which is indented no more than the key. -/
structure PassesScalar (n : Nat) (written : List Char) (token : Token) : Prop where
  starts : ∀ tail, StartsToken (written ++ tail)
  passes : ∀ (outer : List Int) (found tokens : List Token) (rest : List Char) (m i l k : Nat),
    m ≤ n → n < k → StartsToken rest →
    (∀ j below,
      Scans (place ⟨Int.ofNat n, outer⟩ true (found ++ [token]) ⟨rest, j, below, m⟩) tokens) →
    Scans (place ⟨Int.ofNat n, outer⟩ false found ⟨written ++ (margin m ++ rest), i, l, k⟩) tokens

theorem atBlank_lineEnd (cs : List Char) (m : Nat) (rest : List Char) :
    atBlank (cs ++ lineEnd m rest) = atBlank cs := by
  cases cs <;> rfl

theorem atBlank_of_goesOn {cs : List Char} (h : GoesOn ':' cs) : atBlank cs = false := by
  cases cs with
  | nil => exact absurd rfl h.left
  | cons c cs => exact isBlankOrBreak_of_plain h.left h.right.left (h.right.right.left rfl)

theorem passes_plain {n : Nat} {cs : List Char} (h : IsPlainText cs) :
    PassesScalar n (cs ++ ['\n']) (.scalar true (String.ofList cs)) := by
  cases cs with
  | nil => exact h.elim
  | cons c cs =>
      rcases h with ⟨-, hsolid, hmarked, hgoes⟩
      rcases Bool.or_eq_false_iff.mp hmarked with ⟨hmark, hsign⟩
      have hne : c ≠ '#' := by
        rintro rfl
        cases hmark
      constructor
      case starts => exact fun tail => ⟨hsolid, hne⟩
      case passes =>
        intro outer found tokens rest m i l k hm hk hstart hscans
        have hlines : c :: cs ++ ['\n'] ++ (margin m ++ rest) = c :: (cs ++ lineEnd m rest) := by
          simp [lineEnd, margin]
        have hblank : c = '-' ∨ c = '?' ∨ c = ':' → atBlank (cs ++ lineEnd m rest) = false := by
          rw [atBlank_lineEnd]
          rintro (rfl | rfl | rfl)
          · exact hsign
          · exact hsign
          · exact atBlank_of_goesOn hgoes
        have hpos : 0 < k := Nat.lt_of_le_of_lt (Nat.zero_le n) hk
        have hread : readPlain false (Int.ofNat (n + 1)) ⟨c :: cs ++ lineEnd m rest, i, l, k⟩ =
            some (c :: cs, true, ⟨rest, i + (c :: cs).length + 1 + m, l + 1, m⟩) :=
          readPlain_line hsolid hne hgoes hpos (Nat.lt_succ_of_le hm) hk hstart.solid
        have hmarker : (Cursor.mk (c :: (cs ++ lineEnd m rest)) i l k).atMarker = false :=
          atMarker_of_pos hpos
        have hnext : (place ⟨Int.ofNat n, outer⟩ false found
            ⟨c :: (cs ++ lineEnd m rest), i, l, k⟩).next c (cs ++ lineEnd m rest) =
              some (place ⟨Int.ofNat n, outer⟩ true (found ++ [.scalar true (String.ofList (c :: cs))])
                ⟨rest, i + (c :: cs).length + 1 + m, l + 1, m⟩) := by
          rw [next_plain rfl hmarker hsolid hmark hblank]
          rw [plainScalar_of_readPlain (t := place ⟨Int.ofNat n, outer⟩ false found
            ⟨c :: (cs ++ lineEnd m rest), i, l, k⟩) rfl rfl hread]
          simp only [place, allowKey, push, List.push_toArray]
        have hless : rest.length ≤ (cs ++ lineEnd m rest).length := by
          simp only [lineEnd, List.length_append, List.length_cons]
          omega
        rw [hlines]
        exact Scans.of_next rfl ⟨hsolid, hne⟩ dropStale_place
          (closeBlocks_of_le (Int.ofNat_le.mpr (Nat.le_of_lt hk))) hnext hless (hscans _ _)

theorem next_quote {single : Bool} {s : Scanner} {rest : List Char}
    (hmarker : s.cursor.atMarker = false) (hflow : s.flow = 0) :
    s.next (quoteMark single) rest = s.quotedScalar single := by
  have hinFlow : s.inFlow = false := by
    rw [inFlow, hflow]
    rfl
  cases single with
  | false => simp [quoteMark, next, hmarker, hinFlow]
  | true => simp [quoteMark, next, hmarker, hinFlow]

theorem quotedScalar_of_readQuoted {single : Bool} {s t : Scanner} {text : List Char}
    {after : Cursor} (hmark : s.markKey = some t)
    (hread : readQuoted single t.cursor = some (text, after)) :
    s.quotedScalar single =
      some { (t.allowKey false).push (.scalar false (String.ofList text)) with cursor := after } := by
  rw [quotedScalar, hmark]
  simp only [hread]

theorem passes_quoted {n : Nat} {single : Bool} {written : Char → List Char} {raw : Char → Bool}
    {w : Nat} {cs : List Char} (hw : 0 < w) (h : IsQuotedText single written raw cs) :
    PassesScalar n
      (quoteMark single :: (quotedLines written raw w false cs ++ [quoteMark single]) ++ ['\n'])
      (.scalar false (String.ofList cs)) := by
  have hmark (tail : List Char) : StartsToken (quoteMark single :: tail) := by
    cases single <;> exact ⟨by decide, by decide⟩
  refine ⟨fun tail => hmark _, ?_⟩
  intro outer found tokens rest m i l k hm hk hstart hscans
  have hlines : quoteMark single :: (quotedLines written raw w false cs ++ [quoteMark single]) ++
      ['\n'] ++ (margin m ++ rest) =
        quoteMark single ::
          (quotedLines written raw w false cs ++ quoteMark single :: lineEnd m rest) := by
    simp [lineEnd, margin]
  have hmarker : (Cursor.mk (quoteMark single ::
      (quotedLines written raw w false cs ++ quoteMark single :: lineEnd m rest)) i l k).atMarker =
        false := atMarker_of_pos (Nat.lt_of_le_of_lt (Nat.zero_le n) hk)
  have hend : (lineEnd m rest).head? ≠ some '\'' :=
    fun h => absurd (Option.some.inj h) (by decide)
  rcases readQuoted_quotedLines hw hend h i l k with ⟨j, below, column, hread⟩
  have hnext : (place ⟨Int.ofNat n, outer⟩ false found
      ⟨quoteMark single :: (quotedLines written raw w false cs ++ quoteMark single :: lineEnd m rest),
        i, l, k⟩).next (quoteMark single)
          (quotedLines written raw w false cs ++ quoteMark single :: lineEnd m rest) =
        some (place ⟨Int.ofNat n, outer⟩ false (found ++ [.scalar false (String.ofList cs)])
          ⟨lineEnd m rest, j, below, column⟩) := by
    rw [next_quote hmarker rfl, quotedScalar_of_readQuoted (t := place ⟨Int.ofNat n, outer⟩ false
      found ⟨quoteMark single :: (quotedLines written raw w false cs ++
        quoteMark single :: lineEnd m rest), i, l, k⟩) rfl hread]
    simp only [place, allowKey, push, List.push_toArray]
  have hless : (lineEnd m rest).length ≤
      (quotedLines written raw w false cs ++ quoteMark single :: lineEnd m rest).length := by
    simp only [List.length_append, List.length_cons]
    omega
  rw [hlines]
  exact Scans.of_next rfl (hmark _) dropStale_place
    (closeBlocks_of_le (Int.ofNat_le.mpr (Nat.le_of_lt hk))) hnext hless
    (Scans.of_lineEnd hstart (hscans _ _))

theorem next_bar {s : Scanner} {rest : List Char} (hmarker : s.cursor.atMarker = false)
    (hflow : s.flow = 0) : s.next '|' rest = s.blockScalar true := by
  have hinFlow : s.inFlow = false := by
    rw [inFlow, hflow]
    rfl
  simp [next, hmarker, hinFlow]

theorem blockScalar_of_readBlock {literal : Bool} {s t : Scanner} {text : List Char}
    {after : Cursor} (hforget : s.forgetKey = some t)
    (hread : readBlock literal t.indent t.cursor = some (text, after)) :
    s.blockScalar literal =
      some { (t.allowKey true).push (.scalar false (String.ofList text)) with cursor := after } := by
  rw [blockScalar, hforget]
  simp only [hread]

theorem passes_literal {n : Nat} {cs : List Char} (hne : cs ≠ [])
    (hprintable : ∀ c ∈ cs, isPrintable c = true) :
    PassesScalar n (literalBlock (n + 2) cs ++ (if endsWith isBreak cs then [] else ['\n']))
      (.scalar false (String.ofList cs)) := by
  refine ⟨fun tail => ⟨(by decide : isBlankOrBreak '|' = false), (by decide : '|' ≠ '#')⟩, ?_⟩
  intro outer found tokens rest m i l k hm hk hstart hscans
  rcases readBlock_literalBlock (n := n) (Nat.lt_succ_of_lt (Nat.lt_succ_of_le hm)) hstart.solid hne
    hprintable i l k with ⟨j, below, hread⟩
  rw [List.append_assoc]
  generalize hwritten : literalBlock (n + 2) cs ++
    ((if endsWith isBreak cs then [] else ['\n']) ++ (margin m ++ rest)) = written at hread ⊢
  have hbar : ∃ tail, written = '|' :: tail ∧ rest.length ≤ tail.length := by
    have hheader : written = '|' :: (marginMark cs ++ (chompingMark cs ++
        '\n' :: (withMargins (n + 2) true cs ++
          ((if endsWith isBreak cs then [] else ['\n']) ++ (margin m ++ rest))))) := by
      rw [← hwritten]
      simp [literalBlock]
    refine ⟨_, hheader, ?_⟩
    simp only [List.length_append, List.length_cons]
    omega
  rcases hbar with ⟨tail, rfl, hless⟩
  have hnext : (place ⟨Int.ofNat n, outer⟩ false found ⟨'|' :: tail, i, l, k⟩).next '|' tail =
      some (place ⟨Int.ofNat n, outer⟩ true (found ++ [.scalar false (String.ofList cs)])
        ⟨rest, j, below, m⟩) := by
    rw [next_bar (atMarker_of_ne (by decide) (by decide)) rfl, blockScalar_of_readBlock
      (t := place ⟨Int.ofNat n, outer⟩ false found ⟨'|' :: tail, i, l, k⟩) rfl hread]
    simp only [place, allowKey, push, List.push_toArray]
  exact Scans.of_next rfl ⟨by decide, by decide⟩ dropStale_place
    (closeBlocks_of_le (Int.ofNat_le.mpr (Nat.le_of_lt hk))) hnext hless (hscans _ _)

/-!
## Texts
-/

def standsPlain (s : String) : Bool :=
  scalarForm s == .plain

theorem isPlainText_of_scalarForm {s : String} (h : scalarForm s = .plain) :
    IsPlainText s.toList := by
  simp only [scalarForm] at h
  split at h
  · split at h <;> cases h
  · split at h
    case isTrue htext =>
      rw [Bool.and_eq_true] at htext
      refine isPlainText_of_allowsPlain ?_ htext.right
      intro hempty
      have hs : s = "" := String.toList_eq_nil_iff.mp hempty
      rw [hs] at htext
      exact absurd htext.left (by decide)
    case isFalse => split at h <;> cases h

theorem isQuotedText_of_scalarForm {s : String} (h : scalarForm s = .singleQuoted) :
    IsQuotedText true doubledQuote isBreak s.toList := by
  simp only [scalarForm] at h
  split at h
  · split at h <;> cases h
  · rename_i hfeed
    split at h
    · cases h
    · split at h
      case isTrue hallowed =>
        exact isQuotedText_single hallowed fun hmem => hfeed (List.contains_iff_mem.mpr hmem)
      case isFalse => cases h

theorem ne_nil_of_scalarForm {s : String} (h : scalarForm s = .literal) : s.toList ≠ [] := by
  rintro hempty
  simp only [scalarForm, hempty, List.contains_nil, Bool.false_eq_true, if_false] at h
  split at h
  · cases h
  · split at h <;> cases h

/-- Only between double quotes is there anything that must not stand as it is. -/
theorem isPrintable_of_scalarForm {s : String} (h : scalarForm s ≠ .doubleQuoted) :
    ∀ c ∈ s.toList, isPrintable c = true := by
  have hunescaped : isUnescaped s.toList = true := by
    simp only [scalarForm] at h
    split at h
    case isTrue =>
      split at h
      case isTrue hallowed => exact (Bool.and_eq_true_iff.mp hallowed).left
      case isFalse => exact absurd rfl h
    case isFalse =>
      split at h
      case isTrue hallowed =>
        simp only [allowsPlain, Bool.and_eq_true] at hallowed
        exact hallowed.right.left.left.left.left
      case isFalse =>
        split at h
        case isTrue hallowed => exact (Bool.and_eq_true_iff.mp hallowed).left
        case isFalse => exact absurd rfl h
  exact List.all_eq_true.mp (Bool.and_eq_true_iff.mp hunescaped).left

theorem passes_text (n : Nat) (s : String) :
    PassesScalar n (scalarLines (n + 2) s) (.scalar (standsPlain s) s) := by
  have hs : String.ofList s.toList = s := String.ofList_toList
  unfold scalarLines standsPlain
  cases hform : scalarForm s with
  | plain =>
      have hpasses := passes_plain (n := n) (isPlainText_of_scalarForm hform)
      rwa [hs] at hpasses
  | singleQuoted =>
      have hpasses := passes_quoted (n := n) (Nat.succ_pos (n + 1)) (isQuotedText_of_scalarForm hform)
      rw [hs] at hpasses
      simp only [singleQuoted_eq]
      exact hpasses
  | doubleQuoted =>
      have hpasses := passes_quoted (n := n) (Nat.succ_pos (n + 1)) (isQuotedText_double s.toList)
      rw [hs] at hpasses
      simp only [doubleQuoted_eq (n + 2)]
      exact hpasses
  | literal =>
      have hprintable := isPrintable_of_scalarForm (by rw [hform]; decide)
      have hpasses := passes_literal (n := n) (ne_nil_of_scalarForm hform) hprintable
      rwa [hs] at hpasses

theorem isPrintable_of_isIdentifierChar {c : Char} (h : Text.isIdentifierChar c = true) :
    isPrintable c = true := by
  have hcode := Text.toNat_of_isIdentifierChar h
  have htab := ne_of_isIdentifierChar (d := '\t') h (by decide)
  have hreturn := ne_of_isIdentifierChar (d := '\r') h (by decide)
  have hallowed : isAllowed c = true := by
    simp only [isAllowed, Bool.or_eq_true, Bool.and_eq_true, decide_eq_true_eq, beq_iff_eq]
    omega
  have hnext : c.toNat ≠ 0x85 := by omega
  simp [isPrintable, hallowed, htab, hreturn, hnext]

theorem isPlainText_of_word {cs : List Char} (hne : cs ≠ [])
    (h : ∀ c ∈ cs, Text.isIdentifierChar c = true) : IsPlainText cs := by
  cases cs with
  | nil => exact absurd rfl hne
  | cons c cs =>
      rw [List.forall_mem_cons] at h
      have hquestion := ne_of_isIdentifierChar (d := '?') h.left (by decide)
      have hdash := ne_of_isIdentifierChar (d := '-') h.left (by decide)
      have hstart (d : Char) (hd : Text.isIdentifierChar d = true) : d ≠ ':' ∧ d ≠ ' ' :=
        ⟨ne_of_isIdentifierChar hd (by decide), ne_of_isIdentifierChar hd (by decide)⟩
      refine ⟨isPrintable_of_isIdentifierChar h.left, solid_of_isIdentifierChar h.left, ?_, ?_⟩
      · rw [startsMarked, leadingMarks_of_isIdentifierChar h.left,
          beq_eq_false_iff_ne.mpr hquestion, beq_eq_false_iff_ne.mpr hdash]
        rfl
      · refine goesOn_of_forall (hstart c h.left) fun d hmem => ?_
        exact ⟨isPrintable_of_isIdentifierChar (h.right d hmem),
          isBreak_of_solid (solid_of_isIdentifierChar (h.right d hmem)), hstart d (h.right d hmem)⟩

theorem passes_number (n count : Nat) :
    PassesScalar n ((Decimal.digitText count).toList ++ ['\n'])
      (.scalar true (Decimal.digitText count)) := by
  have hdigits : (Decimal.digitText count).toList = Nat.toDigits 10 count := String.toList_ofList
  have hword : IsPlainText (Nat.toDigits 10 count) := by
    refine isPlainText_of_word Nat.toDigits_ne_nil fun c hmem => ?_
    have hdigit := Nat.isDigit_of_mem_toDigits (by decide) (by decide) hmem
    rw [Text.isIdentifierChar, Char.isAlphanum, hdigit, Bool.or_true, Bool.true_or]
  rw [hdigits]
  exact passes_plain hword

end Places

end Scanner
end Yaml
end TransformChain
