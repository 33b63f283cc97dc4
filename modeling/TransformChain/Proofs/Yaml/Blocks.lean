import TransformChain.Keyed
import TransformChain.Proofs.Yaml.Scanning

/-!
# Tokens of blocks

A block whose keys are words and whose lists hold records is scanned into the tokens of its tree.
-/

namespace TransformChain
namespace Yaml
/-!
## Characters
-/

section Characters

variable {cs : List Char} {c : Char}

theorem isAllowed_of_isPrintable (h : isPrintable c = true) : isAllowed c = true := by
  simp only [isPrintable, Bool.and_eq_true] at h
  exact h.left.left.left

theorem isAllowed_of_all (h : cs.all isAllowed = true) : ∀ c ∈ cs, isAllowed c = true :=
  List.all_eq_true.mp h

theorem isAllowed_margin (m : Nat) : ∀ c ∈ margin m, isAllowed c = true := by
  intro c hmem
  rw [List.eq_of_mem_replicate hmem]
  rfl

theorem isAllowed_withMargins (m : Nat) (below : Bool) (h : ∀ c ∈ cs, isAllowed c = true) :
    ∀ c ∈ withMargins m below cs, isAllowed c = true := by
  induction cs generalizing below with
  | nil => exact h
  | cons d cs ih =>
      rw [List.forall_mem_cons] at h
      have hrest (below : Bool) := ih below h.right
      rw [withMargins]
      split
      · exact List.forall_mem_cons.mpr ⟨h.left, hrest true⟩
      · split
        · exact List.forall_mem_append.mpr
            ⟨isAllowed_margin m, List.forall_mem_cons.mpr ⟨h.left, hrest false⟩⟩
        · exact List.forall_mem_cons.mpr ⟨h.left, hrest false⟩

theorem isAllowed_doubledQuote (h : ∀ c ∈ cs, isAllowed c = true) :
    ∀ c ∈ cs.flatMap doubledQuote, isAllowed c = true := by
  intro d hmem
  rcases List.mem_flatMap.mp hmem with ⟨c, hc, hd⟩
  rw [doubledQuote] at hd
  split at hd
  · rw [List.mem_cons, List.mem_singleton, or_self] at hd
    rw [hd]
    rfl
  · rw [List.mem_singleton.mp hd]
    exact h c hc

theorem isAllowed_upperHexDigits (count n : Nat) :
    ∀ c ∈ upperHexDigits count n, isAllowed c = true := by
  have hdigits : ∀ d < 16, isAllowed (Nat.digitChar d).toUpper = true := by decide
  rw [upperHexDigits, List.forall_mem_map]
  exact fun k _ => hdigits _ (Nat.mod_lt _ (by decide))

theorem isAllowed_escapedChar (c : Char) : ∀ d ∈ escapedChar c, isAllowed d = true := by
  have hhex (e : Char) (he : isAllowed e = true) (count : Nat) :
      ∀ d ∈ '\\' :: e :: upperHexDigits count c.toNat, isAllowed d = true :=
    List.forall_mem_cons.mpr
      ⟨rfl, List.forall_mem_cons.mpr ⟨he, isAllowed_upperHexDigits count c.toNat⟩⟩
  rw [escapedChar]
  split
  · exact isAllowed_of_all (by decide)
  · split
    · exact isAllowed_of_all (by decide)
    · split
      case isTrue hprintable =>
        rw [List.forall_mem_singleton]
        exact isAllowed_of_isPrintable (Bool.and_eq_true_iff.mp hprintable).left
      case isFalse =>
        split
        case h_13 =>
          split
          · exact hhex 'x' (by decide) 2
          · split
            · exact hhex 'u' (by decide) 4
            · exact hhex 'U' (by decide) 8
        all_goals exact isAllowed_of_all (by decide)

theorem isAllowed_singleQuoted (m : Nat) (h : ∀ c ∈ cs, isAllowed c = true) :
    ∀ c ∈ singleQuoted m cs, isAllowed c = true := by
  have htext := isAllowed_withMargins m false (isAllowed_doubledQuote h)
  have hend : ∀ c ∈ (if endsWith isBreak cs then margin m else []), isAllowed c = true := by
    split
    · exact isAllowed_margin m
    · exact List.forall_mem_nil _
  simp only [singleQuoted, List.forall_mem_append, List.forall_mem_cons]
  exact ⟨⟨⟨rfl, htext⟩, hend⟩, rfl, List.forall_mem_nil _⟩

theorem isAllowed_doubleQuoted (cs : List Char) : ∀ c ∈ doubleQuoted cs, isAllowed c = true := by
  have htext : ∀ c ∈ cs.flatMap escapedChar, isAllowed c = true := by
    intro d hmem
    rcases List.mem_flatMap.mp hmem with ⟨c, -, hd⟩
    exact isAllowed_escapedChar c d hd
  simp only [doubleQuoted, List.forall_mem_append, List.forall_mem_cons]
  exact ⟨⟨rfl, htext⟩, rfl, List.forall_mem_nil _⟩

theorem isAllowed_chompingMark (cs : List Char) : ∀ c ∈ chompingMark cs, isAllowed c = true := by
  unfold chompingMark
  split
  · split
    · exact isAllowed_of_all (by decide)
    · split
      · exact isAllowed_of_all (by decide)
      · split <;> exact isAllowed_of_all (by decide)
  · exact isAllowed_of_all (by decide)

theorem isAllowed_literalBlock (m : Nat) (h : ∀ c ∈ cs, isAllowed c = true) :
    ∀ c ∈ literalBlock m cs, isAllowed c = true := by
  have htext := isAllowed_withMargins m true h
  have hmargin : ∀ c ∈ marginMark cs, isAllowed c = true := by
    rw [marginMark]
    split
    · exact isAllowed_of_all (by decide)
    · exact List.forall_mem_nil _
  simp only [literalBlock, List.forall_mem_append, List.forall_mem_cons]
  exact ⟨⟨⟨rfl, hmargin⟩, isAllowed_chompingMark cs⟩, rfl, htext⟩

theorem isAllowed_scalarLines (m : Nat) (s : String) :
    ∀ c ∈ scalarLines m s, isAllowed c = true := by
  have hfeed : ∀ c ∈ ['\n'], isAllowed c = true := isAllowed_of_all (by decide)
  have hallowed (h : scalarForm s ≠ .doubleQuoted) : ∀ c ∈ s.toList, isAllowed c = true :=
    fun c hmem => isAllowed_of_isPrintable (Scanner.isPrintable_of_scalarForm h c hmem)
  unfold scalarLines
  cases hform : scalarForm s with
  | plain =>
      have htext := hallowed (by rw [hform]; decide)
      exact List.forall_mem_append.mpr ⟨htext, hfeed⟩
  | singleQuoted =>
      have htext := isAllowed_singleQuoted m (hallowed (by rw [hform]; decide))
      exact List.forall_mem_append.mpr ⟨htext, hfeed⟩
  | doubleQuoted =>
      exact List.forall_mem_append.mpr ⟨isAllowed_doubleQuoted s.toList, hfeed⟩
  | literal =>
      have htext := isAllowed_literalBlock m (hallowed (by rw [hform]; decide))
      refine List.forall_mem_append.mpr ⟨htext, ?_⟩
      split
      · exact List.forall_mem_nil _
      · exact hfeed

theorem isAllowed_key {key : String} (h : Scanner.IsKey key) :
    ∀ c ∈ key.toList, isAllowed c = true :=
  fun _ hmem => isAllowed_of_isPrintable
    (Scanner.isPrintable_of_isIdentifierChar (Text.isIdentifierChar_of_mem h.word hmem))

theorem isAllowed_digitText (n : Nat) : ∀ c ∈ (Decimal.digitText n).toList, isAllowed c = true := by
  intro c hmem
  rw [Decimal.digitText, String.toList_ofList] at hmem
  have hdigit := Nat.isDigit_of_mem_toDigits (by decide) (by decide) hmem
  refine isAllowed_of_isPrintable (Scanner.isPrintable_of_isIdentifierChar ?_)
  rw [Text.isIdentifierChar, Char.isAlphanum, hdigit, Bool.or_true, Bool.true_or]

/-- A document of allowed characters is scanned from its first character on. -/
theorem scan_of_isAllowed {text : String} (h : ∀ c ∈ text.toList, isAllowed c = true) :
    scan text = Scanner.run (text.toList.length + 1) (Scanner.start text.toList) := by
  have hall := List.all_eq_true.mpr h
  cases htext : text.toList with
  | nil =>
      simp only [scan, htext]
      rfl
  | cons c rest =>
      rw [htext] at h hall
      have hmark : (c.toNat == 0xFEFF) = false := by
        rw [beq_eq_false_iff_ne]
        intro hcode
        have hc := h c List.mem_cons_self
        simp [isAllowed, hcode] at hc
      simp only [scan, htext, hmark, Bool.false_eq_true, if_false, hall, if_true]

end Characters

namespace Block

/-!
## Lines
-/

theorem recordLines_cons (n : Nat) (key : String) (block : Block) (fields : List (String × Block)) :
    recordLines n ((key, block) :: fields) =
      key.toList ++ ':' :: (fieldLines n block ++
        if fields.isEmpty then [] else margin n ++ recordLines n fields) := by
  cases fields with
  | nil =>
      rw [List.isEmpty_nil, if_pos rfl, List.append_nil, recordLines]
  | cons field fields =>
      rw [recordLines]
      · simp
      · exact List.cons_ne_nil _ _

theorem itemLines_cons (n : Nat) (item : Block) (items : List Block) :
    itemLines n (item :: items) =
      margin n ++ '-' :: ' ' :: (afterDash (n + 2) item ++ itemLines n items) := by
  rw [itemLines]
  simp

theorem fieldLines_list (n : Nat) {items : List Block} (hne : items ≠ []) :
    fieldLines n (.list items) = '\n' :: itemLines n items := by
  cases items with
  | nil => exact absurd rfl hne
  | cons item items =>
      rw [fieldLines]
      exact fun h => nomatch h

theorem fieldLines_record (n : Nat) {fields : List (String × Block)} (hne : fields ≠ []) :
    fieldLines n (.record fields) = '\n' :: (margin (n + 2) ++ recordLines (n + 2) fields) := by
  cases fields with
  | nil => exact absurd rfl hne
  | cons field fields =>
      rw [fieldLines]
      · rfl
      · exact fun h => nomatch h

theorem afterDash_record (n : Nat) {fields : List (String × Block)} (hne : fields ≠ []) :
    afterDash n (.record fields) = recordLines n fields := by
  cases fields with
  | nil => exact absurd rfl hne
  | cons field fields =>
      rw [afterDash]
      exact fun h => nomatch h

/-!
## Trees
-/

def IsRecord : Block → Prop
  | .record _ => True
  | _ => False

mutual

/-- Numbers fit into 64 bits, keys are words and differ within a record, lists hold records, and
neither lists nor records are empty. -/
def IsTree : Block → Prop
  | .number n => Int.ofNat n ≤ Decimal.greatestInt
  | .text _ => True
  | .list items => items ≠ [] ∧ AreItems items
  | .record fields => fields ≠ [] ∧ (Keyed.keys fields).Nodup ∧ AreFields fields

def AreFields : List (String × Block) → Prop
  | [] => True
  | (key, block) :: rest => Scanner.IsKey key ∧ block.IsTree ∧ AreFields rest

def AreItems : List Block → Prop
  | [] => True
  | item :: rest => item.IsRecord ∧ item.IsTree ∧ AreItems rest

end

theorem areFields_append {fields others : List (String × Block)} (h : AreFields fields)
    (hothers : AreFields others) : AreFields (fields ++ others) := by
  induction fields with
  | nil => exact hothers
  | cons field fields ih =>
      rcases field with ⟨key, block⟩
      exact ⟨h.left, h.right.left, ih h.right.right⟩

mutual

def tokens : Block → List Token
  | .number n => [.scalar true (Decimal.digitText n)]
  | .text s => [.scalar (Scanner.standsPlain s) s]
  | .list items => itemTokens items
  | .record fields => .blockMappingStart :: (fieldTokens fields ++ [.blockEnd])

def fieldTokens : List (String × Block) → List Token
  | [] => []
  | (key, block) :: rest => .key :: .scalar true key :: .value :: (block.tokens ++ fieldTokens rest)

/-- The items of a list behind a key, in no block of their own. -/
def itemTokens : List Block → List Token
  | [] => []
  | item :: rest => .blockEntry :: (item.tokens ++ itemTokens rest)

end

end Block

/-!
## Scanning trees
-/

namespace Scanner

/-- Behind the colon of a key in the given column, the scanner passes the block. -/
def PassesField (n : Nat) (block : Block) : Prop :=
  ∀ (outer : List Int) (found tokens : List Token) (rest : List Char) (m i l k : Nat),
    m ≤ n → n ≤ k → StartsToken rest →
    (∀ j below,
      Scans (place ⟨Int.ofNat n, outer⟩ true (found ++ block.tokens) ⟨rest, j, below, m⟩) tokens) →
    Scans (place ⟨Int.ofNat n, outer⟩ false found
      ⟨block.fieldLines n ++ (margin m ++ rest), i, l, k⟩) tokens

/-- In the column of a record, which is open or can begin there, the scanner passes its fields. -/
def PassesFields (n : Nat) (fields : List (String × Block)) : Prop :=
  ∀ (blocks : Blocks) (found tokens : List Token) (rest : List Char) (m i l : Nat),
    m ≤ n → blocks.indent ≤ Int.ofNat n → StartsToken rest →
    (∀ j below, Scans (place (blocks.entered n) true
      (found ++ blocks.entering n ++ Block.fieldTokens fields) ⟨rest, j, below, m⟩) tokens) →
    Scans (place blocks true found ⟨Block.recordLines n fields ++ (margin m ++ rest), i, l, n⟩) tokens

/-- In the column of a list, whose dashes stand in the column of its key, the scanner passes the
items. -/
def PassesItems (n : Nat) (items : List Block) : Prop :=
  ∀ (outer : List Int) (found tokens : List Token) (rest : List Char) (m : Nat),
    m ≤ n → StartsToken rest →
    (∀ j below, Scans (place ⟨Int.ofNat n, outer⟩ true (found ++ Block.itemTokens items)
      ⟨rest, j, below, m⟩) tokens) →
    ∃ column line, Block.itemLines n items ++ (margin m ++ rest) = margin column ++ line ∧
      column ≤ n ∧ StartsToken line ∧
      ∀ j below, Scans (place ⟨Int.ofNat n, outer⟩ true found ⟨line, j, below, column⟩) tokens

section Trees

variable {n : Nat} {key : String} {block : Block} {fields : List (String × Block)}
  {items : List Block}

theorem PassesScalar.field {written : List Char} {token : Token}
    (h : PassesScalar n written token) (hlines : block.fieldLines n = ' ' :: written)
    (htokens : block.tokens = [token]) : PassesField n block := by
  intro outer found tokens rest m i l k hm hk hstart hscans
  rw [hlines, List.cons_append]
  rw [htokens] at hscans
  exact Scans.of_space (h.starts _)
    (h.passes outer found tokens rest m (i + 1) l (k + 1) hm (Nat.lt_succ_of_le hk) hstart hscans)

theorem passesField_number (count : Nat) : PassesField n (.number count) := by
  refine (passes_number n count).field ?_ ?_
  · rw [Block.fieldLines]
    rfl
  · rw [Block.tokens]

theorem passesField_text (s : String) : PassesField n (.text s) := by
  refine (passes_text n s).field ?_ ?_
  · rw [Block.fieldLines]
  · rw [Block.tokens]

theorem entered_entered {blocks : Blocks} (h : blocks.indent ≤ Int.ofNat n) :
    (blocks.entered n).indent = Int.ofNat n ∧ (blocks.entered n).entered n = blocks.entered n ∧
      (blocks.entered n).entering n = [] := by
  have hindent : (blocks.entered n).indent = Int.ofNat n := by
    unfold Blocks.entered
    by_cases hopen : Int.ofNat n ≤ blocks.indent
    · rw [if_pos hopen]
      exact Int.le_antisymm h hopen
    · rw [if_neg hopen]
  have hopen : Int.ofNat n ≤ (blocks.entered n).indent := Int.le_of_eq hindent.symm
  exact ⟨hindent, if_pos hopen, if_pos hopen⟩

theorem entered_deeper (n : Nat) (outer : List Int) :
    (Blocks.mk (Int.ofNat n) outer).entered (n + 2) = ⟨Int.ofNat (n + 2), Int.ofNat n :: outer⟩ ∧
      (Blocks.mk (Int.ofNat n) outer).entering (n + 2) = [.blockMappingStart] := by
  have hdeeper : ¬Int.ofNat (n + 2) ≤ Int.ofNat n := by
    rw [Int.not_le]
    exact Int.ofNat_lt.mpr (Nat.lt_add_of_pos_right Nat.two_pos)
  exact ⟨if_neg hdeeper, if_neg hdeeper⟩

/-- One field of a record. -/
theorem PassesField.withKey (hblock : PassesField n block) (hkey : IsKey key)
    (hlines : ∀ tail, atBlank (block.fieldLines n ++ tail) = true) {blocks : Blocks}
    {found tokens : List Token} {rest : List Char} {m i l : Nat} (hm : m ≤ n)
    (hindent : blocks.indent ≤ Int.ofNat n) (hstart : StartsToken rest)
    (hscans : ∀ j below, Scans (place (blocks.entered n) true
      (found ++ blocks.entering n ++ [.key, .scalar true key, .value] ++ block.tokens)
      ⟨rest, j, below, m⟩) tokens) :
    Scans (place blocks true found
      ⟨key.toList ++ ':' :: (block.fieldLines n ++ (margin m ++ rest)), i, l, n⟩) tokens := by
  have hentered := (entered_entered hindent).left
  have hblocks : blocks.entered n = ⟨Int.ofNat n, (blocks.entered n).outer⟩ := by
    rw [← hentered]
  apply Scans.of_key hkey (hlines _) hindent
  rw [hblocks] at hscans ⊢
  exact hblock _ _ tokens rest m _ l _ hm (by omega) hstart hscans

theorem passesFields_cons (hkey : IsKey key) (hblock : PassesField n block)
    (hlines : ∀ tail, atBlank (block.fieldLines n ++ tail) = true)
    (hfields : fields ≠ [] → PassesFields n fields)
    (hstarts : fields ≠ [] → ∀ tail, StartsToken (Block.recordLines n fields ++ tail)) :
    PassesFields n ((key, block) :: fields) := by
  intro blocks found tokens rest m i l hm hindent hstart hscans
  rw [Block.fieldTokens] at hscans
  rw [Block.recordLines_cons]
  by_cases hnone : fields = []
  · subst hnone
    simp only [List.isEmpty_nil, if_true, List.append_nil, List.append_assoc, List.cons_append]
    refine hblock.withKey hkey hlines hm hindent hstart fun j below => ?_
    simpa only [Block.fieldTokens, List.append_nil, List.append_assoc, List.cons_append,
      List.nil_append] using hscans j below
  · have hsome : fields.isEmpty = false := List.isEmpty_eq_false_iff.mpr hnone
    rcases entered_entered hindent with ⟨hopen, hsame, hbegun⟩
    simp only [hsome, Bool.false_eq_true, if_false, List.append_assoc, List.cons_append]
    refine hblock.withKey hkey hlines (Nat.le_refl n) hindent (hstarts hnone _) fun j below => ?_
    refine hfields hnone (blocks.entered n) _ tokens rest m j below hm (Int.le_of_eq hopen) hstart ?_
    intro j below
    rw [hsame, hbegun]
    simpa only [List.append_nil, List.append_assoc, List.cons_append, List.nil_append] using
      hscans j below

theorem passesField_record (hne : fields ≠ []) (hfields : PassesFields (n + 2) fields)
    (hstarts : ∀ tail, StartsToken (Block.recordLines (n + 2) fields ++ tail)) :
    PassesField n (.record fields) := by
  intro outer found tokens rest m i l k hm hk hstart hscans
  rcases entered_deeper n outer with ⟨hentered, hentering⟩
  have hleft : m < n + 2 := Nat.lt_add_right 1 (Nat.lt_succ_of_le hm)
  rw [Block.fieldLines_record n hne, List.cons_append, List.append_assoc]
  refine Scans.of_lineEnd (hstarts _) ?_
  refine hfields _ found tokens rest m _ _ (Nat.le_add_right_of_le hm)
    (Int.ofNat_le.mpr (Nat.le_add_right n 2)) hstart fun j below => ?_
  rw [hentered, hentering]
  refine Scans.close hstart (Int.ofNat_lt.mpr hleft) ?_
  simpa only [Block.tokens, List.append_assoc, List.cons_append, List.nil_append] using hscans j below

theorem passesField_list (hne : items ≠ []) (hitems : PassesItems n items) :
    PassesField n (.list items) := by
  intro outer found tokens rest m i l k hm hk hstart hscans
  rcases hitems outer found tokens rest m hm hstart (by simpa only [Block.tokens] using hscans) with
    ⟨column, line, hlines, -, hline, hpasses⟩
  rw [Block.fieldLines_list n hne, List.cons_append, hlines]
  exact Scans.of_lineEnd hline (hpasses _ _)

theorem passesItems_nil : PassesItems n [] := by
  intro outer found tokens rest m hm hstart hscans
  refine ⟨m, rest, ?_, hm, hstart, ?_⟩
  · rw [Block.itemLines, List.nil_append]
  · simpa only [Block.itemTokens, List.append_nil] using hscans

theorem passesItems_cons (hne : fields ≠ []) (hfields : PassesFields (n + 2) fields)
    (hstarts : ∀ tail, StartsToken (Block.recordLines (n + 2) fields ++ tail))
    (hitems : PassesItems n items) : PassesItems n (.record fields :: items) := by
  intro outer found tokens rest m hm hstart hscans
  rcases entered_deeper n outer with ⟨hentered, hentering⟩
  have hdash (tail : List Char) : StartsToken ('-' :: tail) := ⟨by decide, by decide⟩
  rcases hitems outer (found ++ Block.itemTokens [.record fields]) tokens rest m hm hstart (by
    simpa only [Block.itemTokens, List.append_nil, List.append_assoc, List.cons_append] using hscans)
    with ⟨column, line, hlines, hcolumn, hline, hpasses⟩
  refine ⟨n, '-' :: ' ' :: (Block.recordLines (n + 2) fields ++ (margin column ++ line)), ?_,
    Nat.le_refl n, hdash _, fun j below => ?_⟩
  · rw [Block.itemLines_cons, Block.afterDash_record _ hne, ← hlines]
    simp only [List.append_assoc, List.cons_append]
  · refine Scans.of_dash rfl (Scans.of_space (hstarts _) ?_)
    refine hfields _ _ tokens line column _ _ (Nat.le_add_right_of_le hcolumn)
      (Int.ofNat_le.mpr (Nat.le_add_right n 2)) hline fun j below => ?_
    rw [hentered, hentering]
    refine Scans.close hline (Int.ofNat_lt.mpr (Nat.lt_add_right 1 (Nat.lt_succ_of_le hcolumn))) ?_
    simpa only [Block.itemTokens, Block.tokens, List.append_nil, List.append_assoc,
      List.cons_append, List.nil_append] using hpasses j below

theorem atBlank_fieldLines (n : Nat) {block : Block} (h : block.IsTree) (tail : List Char) :
    atBlank (block.fieldLines n ++ tail) = true := by
  cases block with
  | number count =>
      rw [Block.fieldLines]
      rfl
  | text s =>
      rw [Block.fieldLines]
      rfl
  | list items =>
      rw [Block.fieldLines_list n h.left]
      rfl
  | record fields =>
      rw [Block.fieldLines_record n h.left]
      rfl

theorem startsToken_recordLines (n : Nat) (hne : fields ≠ []) (h : Block.AreFields fields)
    (tail : List Char) : StartsToken (Block.recordLines n fields ++ tail) := by
  cases fields with
  | nil => exact absurd rfl hne
  | cons field fields =>
      rcases field with ⟨key, block⟩
      rw [Block.recordLines_cons, List.append_assoc]
      exact startsToken_key h.left _

end Trees

mutual

theorem passesField (n : Nat) (block : Block) (h : block.IsTree) : PassesField n block := by
  cases block with
  | number count => exact passesField_number count
  | text s => exact passesField_text s
  | list items => exact passesField_list h.left (passesItems n items h.right)
  | record fields =>
      exact passesField_record h.left (passesFields (n + 2) fields h.left h.right.right)
        (startsToken_recordLines (n + 2) h.left h.right.right)

theorem passesFields (n : Nat) (fields : List (String × Block)) (hne : fields ≠ [])
    (h : Block.AreFields fields) : PassesFields n fields := by
  cases fields with
  | nil => exact absurd rfl hne
  | cons field fields =>
      rcases field with ⟨key, block⟩
      exact passesFields_cons h.left (passesField n block h.right.left)
        (atBlank_fieldLines n h.right.left) (fun hne => passesFields n fields hne h.right.right)
        (fun hne => startsToken_recordLines n hne h.right.right)

theorem passesItems (n : Nat) (items : List Block) (h : Block.AreItems items) :
    PassesItems n items := by
  cases items with
  | nil => exact passesItems_nil
  | cons item items =>
      cases item with
      | number count => exact h.left.elim
      | text s => exact h.left.elim
      | list inner => exact h.left.elim
      | record fields =>
          exact passesItems_cons h.right.left.left
            (passesFields (n + 2) fields h.right.left.left h.right.left.right.right)
            (startsToken_recordLines (n + 2) h.right.left.left h.right.left.right.right)
            (passesItems n items h.right.right)

end

end Scanner

/-!
## Documents
-/

namespace Block

mutual

theorem isAllowed_fieldLines (n : Nat) (block : Block) (h : block.IsTree) :
    ∀ c ∈ block.fieldLines n, isAllowed c = true := by
  have hfeed : isAllowed '\n' = true := by decide
  have hspace : isAllowed ' ' = true := by decide
  cases block with
  | number count =>
      rw [fieldLines, List.forall_mem_append, List.forall_mem_cons, List.forall_mem_singleton]
      exact ⟨⟨hspace, isAllowed_digitText count⟩, hfeed⟩
  | text s =>
      rw [fieldLines, List.forall_mem_cons]
      exact ⟨hspace, isAllowed_scalarLines (n + 2) s⟩
  | list items =>
      rw [fieldLines_list n h.left, List.forall_mem_cons]
      exact ⟨hfeed, isAllowed_itemLines n items h.right⟩
  | record fields =>
      rw [fieldLines_record n h.left, List.forall_mem_cons, List.forall_mem_append]
      exact ⟨hfeed, isAllowed_margin (n + 2), isAllowed_recordLines (n + 2) fields h.right.right⟩

theorem isAllowed_recordLines (n : Nat) (fields : List (String × Block)) (h : AreFields fields) :
    ∀ c ∈ recordLines n fields, isAllowed c = true := by
  cases fields with
  | nil =>
      rw [recordLines]
      exact List.forall_mem_nil _
  | cons field fields =>
      rcases field with ⟨key, block⟩
      rw [recordLines_cons, List.forall_mem_append, List.forall_mem_cons, List.forall_mem_append]
      refine ⟨isAllowed_key h.left, by decide, isAllowed_fieldLines n block h.right.left, ?_⟩
      split
      · exact List.forall_mem_nil _
      · exact List.forall_mem_append.mpr
          ⟨isAllowed_margin n, isAllowed_recordLines n fields h.right.right⟩

theorem isAllowed_itemLines (n : Nat) (items : List Block) (h : AreItems items) :
    ∀ c ∈ itemLines n items, isAllowed c = true := by
  cases items with
  | nil =>
      rw [itemLines]
      exact List.forall_mem_nil _
  | cons item items =>
      rw [itemLines_cons, List.forall_mem_append, List.forall_mem_cons, List.forall_mem_cons,
        List.forall_mem_append]
      refine ⟨isAllowed_margin n, by decide, by decide, ?_, isAllowed_itemLines n items h.right.right⟩
      cases item with
      | number count => exact h.left.elim
      | text s => exact h.left.elim
      | list inner => exact h.left.elim
      | record fields =>
          rw [afterDash_record _ h.right.left.left]
          exact isAllowed_recordLines (n + 2) fields h.right.left.right.right

end

end Block

/-- A document is scanned into the tokens of its tree. -/
theorem scan_document {fields : List (String × Block)} (h : (Block.record fields).IsTree) :
    scan (Block.document fields) = some (Block.record fields).tokens := by
  have htext : (Block.document fields).toList = Block.recordLines 0 fields := String.toList_ofList
  have hallowed := Block.isAllowed_recordLines 0 fields h.right.right
  have hscans : Scanner.Scans (Scanner.place ⟨-1, []⟩ true [] ⟨Block.recordLines 0 fields, 0, 0, 0⟩)
      (Block.record fields).tokens := by
    have hpasses := Scanner.passesFields 0 fields h.left h.right.right ⟨-1, []⟩ []
      (Block.record fields).tokens [] 0 0 0 (Nat.le_refl 0) (by decide) trivial
    rw [show margin 0 = [] from rfl, List.append_nil, List.append_nil] at hpasses
    refine hpasses fun j below => ?_
    rw [Block.tokens]
    exact Scanner.scans_end
  rw [scan_of_isAllowed (by rw [htext]; exact hallowed), htext]
  exact hscans _ (Nat.lt_succ_self _)

end Yaml
end TransformChain
