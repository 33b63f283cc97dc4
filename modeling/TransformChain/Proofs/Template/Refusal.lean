import TransformChain.Proofs.Template.Printing

/-!
# Where expressions cannot begin or go on

The parsers of the grammar refuse a text by its first character or its first word.  Behind an
expression, the operations of a level are refused where no operation of that level or a tighter
one follows.
-/

namespace TransformChain
namespace Template
namespace Grammar

open Text TransformChain.Parser

variable {inner : Parser Expr} {c : Char} {cs rest : List Char} {name other : String}

/-!
## First characters and first words
-/

theorem refuses_char_of_ne {d : Char} (h : c ≠ d) : RefusesHere (char d) (c :: rest) :=
  refuses_char fun _ heq => h (List.cons.inj heq).left

theorem refuses_word (h : isWordStart c = false) : RefusesHere word (c :: rest) := by
  refine ⟨c :: rest, ?_⟩
  rw [word_cons, if_neg (by simp [h])]

theorem isWordStart_of_word {left : List Char} (h : word (c :: rest) = .accepted name left) :
    isWordStart c = true := by
  rw [word_cons] at h
  split at h
  case isTrue hstart => exact hstart
  case isFalse => cases h

theorem ne_of_isWordStart {d : Char} (h : isWordStart c = true) (hd : isWordStart d = false) :
    c ≠ d := by
  rintro rfl
  rw [h] at hd
  cases hd

theorem reads_keyword {left : List Char} (h : word (dropGap cs) = .accepted name left) :
    ReadsUpTo (keyword name) cs name left :=
  readsUpTo_spaced (readsHere_of_eq (verify_accepted h (beq_self_eq_true name)))

theorem refuses_keyword_of_word {left : List Char} (h : word (dropGap cs) = .accepted name left)
    (hother : name ≠ other) : Refuses (keyword other) cs :=
  refuses_spaced (verify_failed h (beq_eq_false_iff_ne.mpr hother))

theorem word_or_refuses (cs : List Char) :
    (∃ name left, word (dropGap cs) = .accepted name left) ∨
      (RefusesHere word (dropGap cs) ∧ ∀ name, Refuses (keyword name) cs) := by
  cases h : word (dropGap cs) with
  | accepted name left => exact Or.inl ⟨name, left, rfl⟩
  | rejected place =>
      have hrefuses : RefusesHere word (dropGap cs) := ⟨place, h⟩
      exact Or.inr ⟨⟨place, h⟩, fun name => refuses_spaced hrefuses.verify⟩
  | spent =>
      cases hcs : dropGap cs with
      | nil =>
          rw [hcs] at h
          cases h
      | cons c rest =>
          rw [hcs, word_cons] at h
          split at h <;> cases h

theorem refuses_exactly {symbol : String} (h : ∀ rest, cs ≠ symbol.toList ++ rest) :
    RefusesHere (exactly symbol) cs := by
  have hstart : ∀ (ds cs : List Char), (∀ rest, cs ≠ ds ++ rest) → afterStart? ds cs = none := by
    intro ds
    induction ds with
    | nil => exact fun cs hcs => absurd rfl (hcs cs)
    | cons d ds ih =>
        intro cs hcs
        cases cs with
        | nil => rfl
        | cons c cs =>
            unfold afterStart?
            split
            case isFalse => rfl
            case isTrue heq =>
              apply ih
              intro rest hrest
              exact hcs rest (by rw [heq, hrest, List.cons_append])
  refine ⟨cs, ?_⟩
  unfold exactly
  rw [hstart symbol.toList cs h]

/-!
## Operands
-/

def opensOperand (c : Char) : Bool :=
  isWordStart c || c.isDigit || c == '(' || c == '[' || c == '\x7b' || c == '\'' || c == '"'

theorem refuses_parenthesized (h : c ≠ '(') : RefusesHere (parenthesized inner) (c :: rest) :=
  (refuses_char_of_ne h).bind

theorem refuses_bracketed {opening closing : Char} {item : Parser α} (h : c ≠ opening) :
    RefusesHere (bracketed opening closing item) (c :: rest) :=
  (refuses_char_of_ne h).bind

theorem refuses_listLiteral (h : c ≠ '[') : RefusesHere (listLiteral inner) (c :: rest) :=
  (refuses_bracketed h).bind

theorem refuses_dictLiteral (h : c ≠ '\x7b') : RefusesHere (dictLiteral inner) (c :: rest) :=
  (refuses_bracketed h).bind

theorem refuses_stringLiteral (hsingle : c ≠ '\'') (hdouble : c ≠ '"') :
    RefusesHere stringLiteral (c :: rest) := by
  refine RefusesHere.bind ⟨c :: rest, ?_⟩
  unfold stringText
  simp [hsingle, hdouble]

theorem refuses_number (h : c.isDigit = false) : RefusesHere number (c :: rest) := by
  refine RefusesHere.mapSome (RefusesHere.bind ⟨c :: rest, ?_⟩)
  unfold takeWhile1
  rw [List.takeWhile_cons_of_neg (by simp [h])]

theorem refuses_constant (h : isWordStart c = false) : RefusesHere constant (c :: rest) :=
  (refuses_word h).mapSome

theorem refuses_primary (h : opensOperand c = false) :
    RefusesHere (primary inner) (c :: rest) := by
  simp only [opensOperand, Bool.or_eq_false_iff, beq_eq_false_iff_ne] at h
  obtain ⟨⟨⟨⟨⟨⟨hword, hdigit⟩, hparen⟩, hbracket⟩, hbrace⟩, hsingle⟩, hdouble⟩ := h
  unfold primary
  rw [RefusesHere, (refuses_parenthesized hparen).oneOf_eq,
    (refuses_listLiteral hbracket).oneOf_eq, (refuses_dictLiteral hbrace).oneOf_eq,
    (refuses_stringLiteral hsingle hdouble).oneOf_eq, (refuses_number hdigit).oneOf_eq,
    (refuses_constant hword).oneOf_eq]
  exact (refuses_word hword).verify.bind

theorem isDigit_of_isWordStart (h : isWordStart c = true) : c.isDigit = false := by
  rw [Bool.eq_false_iff]
  intro hdigit
  have hrange := Char.isDigit_iff_toNat.mp hdigit
  unfold isWordStart Char.isAlpha Char.isUpper Char.isLower at h
  simp only [Bool.or_eq_true, beq_iff_eq, decide_eq_true_eq, Bool.and_eq_true] at h
  rcases h with (⟨hlow, _⟩ | ⟨hlow, _⟩) | rfl
  · have := UInt32.le_iff_toNat_le.mp hlow
    change 65 ≤ c.toNat at this
    have : c.toNat ≤ 57 := hrange.right
    omega
  · have := UInt32.le_iff_toNat_le.mp hlow
    change 97 ≤ c.toNat at this
    have : c.toNat ≤ 57 := hrange.right
    omega
  · exact absurd hdigit (by decide)

theorem primary_eq_of_word {left : List Char} (h : word cs = .accepted name left) :
    primary inner cs = oneOf [constant, reference] cs := by
  cases cs with
  | nil => cases h
  | cons c rest =>
      have hstart := isWordStart_of_word h
      have hne : ∀ d, isWordStart d = false → c ≠ d := fun d hd => ne_of_isWordStart hstart hd
      unfold primary
      rw [(refuses_parenthesized (hne _ (by decide))).oneOf_eq,
        (refuses_listLiteral (hne _ (by decide))).oneOf_eq,
        (refuses_dictLiteral (hne _ (by decide))).oneOf_eq,
        (refuses_stringLiteral (hne _ (by decide)) (hne _ (by decide))).oneOf_eq,
        (refuses_number (isDigit_of_isWordStart hstart)).oneOf_eq]

theorem refuses_primary_of_word {left : List Char} (h : word cs = .accepted name left)
    (hreserved : reserved.contains name = true) (hvalue : constantValue? name = none) :
    RefusesHere (primary inner) cs := by
  have hconstant : RefusesHere constant cs := mapSome_none h (by rw [hvalue]; rfl)
  rw [RefusesHere, primary_eq_of_word h, hconstant.oneOf_eq]
  exact (verify_failed h (by rw [hreserved]; rfl)).bind

/-!
## Operations

Each operation of a level is refused behind an expression where the text stops before that level.
-/

theorem operationLevel_of_word {left : List Char} (h : word cs = .accepted name left) :
    operationLevel cs = wordLevel name := by
  cases cs with
  | nil => cases h
  | cons c rest =>
      have hstart := isWordStart_of_word h
      rw [word_cons, if_pos hstart] at h
      cases h
      exact if_pos hstart

theorem ne_cons_of_stops {l k : Nat} (h : Stops l cs) (hc : operationLevel (c :: rest) = some k)
    (hk : l ≤ k) : dropGap cs ≠ c :: rest := by
  intro heq
  rw [← heq] at hc
  exact absurd (h k hc) (Nat.not_lt.mpr hk)

theorem refuses_keyword_of_stops {l k : Nat} (h : Stops l cs) (hname : wordLevel name = some k)
    (hk : l ≤ k) : Refuses (keyword name) cs := by
  rcases word_or_refuses cs with ⟨word, left, hword⟩ | ⟨_, hrefuses⟩
  · apply refuses_keyword_of_word hword
    rintro rfl
    rw [← operationLevel_of_word hword] at hname
    exact absurd (h k hname) (Nat.not_lt.mpr hk)
  · exact hrefuses name

def operatorAt : Nat → Parser BinaryOp
  | 1 => wordOp .or
  | 2 => wordOp .and
  | 5 => spaced (symbolOp .concat)
  | 6 => spaced (oneOf [symbolOp .add, symbolOp .sub])
  | 7 => spaced (oneOf [symbolOp .mul, symbolOp .div, symbolOp .mod])
  | _ => reject

theorem refuses_symbolOp {op : BinaryOp} {l : Nat} (h : Stops l cs) (hl : l ≤ op.level)
    (hsymbol : ∀ rest, operationLevel (op.symbol.toList ++ rest) = some op.level) :
    RefusesHere (symbolOp op) (dropGap cs) := by
  refine RefusesHere.bind (refuses_exactly fun rest heq => ?_)
  have hlevel := h op.level (by rw [heq, hsymbol])
  omega

theorem refuses_operatorAt {l : Nat} (h : Stops l cs) : Refuses (operatorAt l) cs := by
  unfold operatorAt
  split
  · exact (refuses_keyword_of_stops h rfl (Nat.le_refl _)).bind
  · exact (refuses_keyword_of_stops h rfl (Nat.le_refl _)).bind
  · exact refuses_spaced (refuses_symbolOp h (Nat.le_refl _) fun _ => rfl)
  · refine refuses_spaced (refuses_oneOf ?_)
    intro p hp
    rcases List.mem_pair.mp hp with rfl | rfl <;>
      exact refuses_symbolOp h (Nat.le_refl _) fun _ => rfl
  · refine refuses_spaced (refuses_oneOf ?_)
    intro p hp
    simp only [List.mem_cons, List.not_mem_nil, or_false] at hp
    rcases hp with rfl | rfl | rfl <;> exact refuses_symbolOp h (Nat.le_refl _) fun _ => rfl
  · exact fun ds _ => ⟨ds, rfl⟩

theorem refuses_comparisonOp {l : Nat} (h : Stops l cs) (hl : l ≤ 4) : Refuses comparisonOp cs := by
  refine refuses_spaced (refuses_oneOf ?_)
  intro p hp
  simp only [List.mem_cons, List.not_mem_nil, or_false] at hp
  rcases hp with rfl | rfl | rfl | rfl | rfl | rfl <;> exact refuses_symbolOp h hl fun _ => rfl

theorem refuses_comparand {l : Nat} (h : Stops l cs) (hl : l ≤ 4) :
    Refuses (comparand inner) cs :=
  (refuses_comparisonOp h hl).bind.orElse <|
    (refuses_keyword_of_stops h rfl hl).bind.orElse <|
    (refuses_keyword_of_stops h rfl hl).bind.orElse <|
    (refuses_keyword_of_stops h rfl hl).bind

theorem refuses_conditionPart (h : Stops 0 cs) : Refuses (conditionPart inner) cs :=
  (refuses_keyword_of_stops h rfl (Nat.zero_le _)).bind

theorem refuses_elsePart (h : Stops 0 cs) : Refuses (elsePart inner) cs :=
  (refuses_keyword_of_stops h rfl (Nat.zero_le _)).bind

theorem refuses_char_of_stops {d : Char} {l k : Nat} (h : Stops l cs)
    (hd : ∀ rest, operationLevel (d :: rest) = some k) (hk : l ≤ k) :
    RefusesHere (char d) (dropGap cs) :=
  refuses_char fun rest => ne_cons_of_stops h (hd rest) hk

theorem refuses_filterCall {l : Nat} (h : Stops l cs) (hl : l ≤ 9) :
    Refuses (filterCall inner) cs :=
  Refuses.bind (refuses_spaced (refuses_char_of_stops h (fun _ => rfl) hl))

theorem refuses_arguments {l : Nat} (h : Stops l cs) (hl : l ≤ 10) :
    RefusesHere (arguments inner) (dropGap cs) :=
  RefusesHere.bind (refuses_char_of_stops h (fun _ => rfl) hl)

theorem refuses_suffix {l : Nat} (h : Stops l cs) (hl : l ≤ 10) : Refuses (suffix inner) cs :=
  (refuses_gap (RefusesHere.bind
    (refuses_char_of_stops h (fun _ => rfl) hl))).orElse <|
  (refuses_gap (RefusesHere.bind
    (refuses_char_of_stops h (fun _ => rfl) hl))).orElse <|
  refuses_gap (refuses_arguments h hl).bind

end Grammar
end Template
end TransformChain
