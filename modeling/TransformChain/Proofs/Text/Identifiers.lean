import TransformChain.Decimal.Shortest
import TransformChain.Text.Identifier

/-!
# Identifiers and numbered names

Cleansed names are unquoted identifiers, identifiers can be continued, and the digits of a number
tell the number and have no letter case.
-/

namespace TransformChain
namespace Text

/-!
## Cleansed names
-/

theorem isIdentifierChar_of_isCleansed {c : Char} (h : isCleansed c = true) :
    isIdentifierChar c = true := by
  simp only [isCleansed, Bool.or_eq_true] at h
  unfold isIdentifierChar Char.isAlphanum Char.isAlpha
  simp only [Bool.or_eq_true]
  rcases h with (hupper | hdigit) | hscore
  · exact Or.inl (Or.inl (Or.inl hupper))
  · exact Or.inl (Or.inr hdigit)
  · exact Or.inr hscore

theorem isIdentifierStart_of_isCleansed {c : Char} (h : isCleansed c = true)
    (hdigit : c.isDigit = false) : isIdentifierStart c = true := by
  simp only [isCleansed, hdigit, Bool.or_false, Bool.or_eq_true] at h
  unfold isIdentifierStart Char.isAlpha
  simp only [Bool.or_eq_true]
  rcases h with hupper | hscore
  · exact Or.inl (Or.inl hupper)
  · exact Or.inr hscore

theorem isIdentifier_iff (s : String) :
    isIdentifier s = true ↔
      ∃ c rest, s.toList = c :: rest ∧ isIdentifierStart c = true ∧
        ∀ d ∈ rest, isIdentifierChar d = true := by
  unfold isIdentifier
  cases s.toList with
  | nil => simp
  | cons c rest =>
      rw [Bool.and_eq_true, List.all_eq_true]
      constructor
      · intro h
        exact ⟨c, rest, rfl, h⟩
      · rintro ⟨_, _, heq, h⟩
        cases heq
        exact h

/-- White space, symbols and letters outside ASCII leave no trace but underscores, so any text at
all gives an identifier. -/
theorem isIdentifier_cleanse (s : String) : isIdentifier (cleanse s) = true := by
  rw [isIdentifier_iff]
  unfold cleanse cleanseChars
  rw [String.toList_ofList]
  have hkept : ∀ c ∈ (upperChars ((trimChars s.toList).map underscored)).filter isCleansed,
      isCleansed c = true := fun c hc => (List.mem_filter.mp hc).right
  generalize (upperChars ((trimChars s.toList).map underscored)).filter isCleansed = kept at hkept
  cases kept with
  | nil => exact ⟨'_', [], rfl, rfl, by simp⟩
  | cons c rest =>
      have hrest : ∀ d ∈ rest, isIdentifierChar d = true := fun d hd =>
        isIdentifierChar_of_isCleansed (hkept d (List.mem_cons_of_mem c hd))
      have hc : isCleansed c = true := hkept c List.mem_cons_self
      cases hdigit : c.isDigit with
      | true =>
          refine ⟨'_', c :: rest, by simp [hdigit], rfl, ?_⟩
          intro d hd
          exact isIdentifierChar_of_isCleansed (hkept d hd)
      | false =>
          exact ⟨c, rest, by simp [hdigit], isIdentifierStart_of_isCleansed hc hdigit, hrest⟩

theorem isIdentifier_append {s t : String} (hs : isIdentifier s = true)
    (ht : ∀ c ∈ t.toList, isIdentifierChar c = true) : isIdentifier (s ++ t) = true := by
  rw [isIdentifier_iff] at hs ⊢
  rcases hs with ⟨c, rest, heq, hc, hrest⟩
  refine ⟨c, rest ++ t.toList, by simp [heq], hc, ?_⟩
  intro d hd
  rcases List.mem_append.mp hd with hd | hd
  · exact hrest d hd
  · exact ht d hd

theorem ne_empty_of_isIdentifier {s : String} (h : isIdentifier s = true) : s ≠ "" := by
  intro hs
  rw [hs] at h
  exact absurd h (by decide)

theorem isIdentifierChar_of_isIdentifierStart {c : Char} (h : isIdentifierStart c = true) :
    isIdentifierChar c = true := by
  simp only [isIdentifierStart, Bool.or_eq_true] at h
  unfold isIdentifierChar Char.isAlphanum
  rcases h with halpha | hscore
  · rw [halpha, Bool.true_or, Bool.true_or]
  · rw [hscore, Bool.or_true]

theorem isIdentifierChar_of_mem {s : String} (h : isIdentifier s = true) {c : Char}
    (hc : c ∈ s.toList) : isIdentifierChar c = true := by
  rcases (isIdentifier_iff s).mp h with ⟨first, rest, hlist, hfirst, hrest⟩
  rw [hlist] at hc
  rcases List.mem_cons.mp hc with rfl | hmem
  · exact isIdentifierChar_of_isIdentifierStart hfirst
  · exact hrest c hmem

theorem toNat_of_isIdentifierChar {c : Char} (h : isIdentifierChar c = true) :
    48 ≤ c.toNat ∧ c.toNat ≤ 122 := by
  unfold isIdentifierChar Char.isAlphanum Char.isAlpha at h
  simp only [Bool.or_eq_true, beq_iff_eq] at h
  rcases h with ((hupper | hlower) | hdigit) | hscore
  · unfold Char.isUpper at hupper
    rw [decide_eq_true_eq] at hupper
    have hlow : 65 ≤ c.toNat := UInt32.le_iff_toNat_le.mp hupper.left
    have hhigh : c.toNat ≤ 90 := UInt32.le_iff_toNat_le.mp hupper.right
    omega
  · unfold Char.isLower at hlower
    rw [Bool.and_eq_true, decide_eq_true_eq, decide_eq_true_eq] at hlower
    have hlow : 97 ≤ c.toNat := UInt32.le_iff_toNat_le.mp hlower.left
    exact ⟨Nat.le_trans (by decide) hlow, UInt32.le_iff_toNat_le.mp hlower.right⟩
  · have hrange : 48 ≤ c.toNat ∧ c.toNat ≤ 57 := Char.isDigit_iff_toNat.mp hdigit
    omega
  · rw [hscore]
    decide

theorem isBlank_of_isIdentifierChar {c : Char} (h : isIdentifierChar c = true) :
    isBlank c = false := by
  have hcode := toNat_of_isIdentifierChar h
  rw [Bool.eq_false_iff]
  simp only [isBlank, ne_eq, Bool.or_eq_true, Bool.and_eq_true, decide_eq_true_eq, beq_iff_eq]
  omega

theorem isBlank_of_isIdentifierStart {c : Char} (h : isIdentifierStart c = true) :
    isBlank c = false :=
  isBlank_of_isIdentifierChar (isIdentifierChar_of_isIdentifierStart h)

/-!
## Letter case of ASCII
-/

theorem lowerAscii_append (s t : String) :
    lowerAscii (s ++ t) = lowerAscii s ++ lowerAscii t := by
  simp [lowerAscii]

theorem toLower_of_isDigit {c : Char} (h : c.isDigit = true) : c.toLower = c := by
  have hle : c.toNat ≤ 57 := (Char.isDigit_iff_toNat.mp h).right
  have hrange : ¬(c.val ≥ 'A'.val ∧ c.val ≤ 'Z'.val) := by
    intro hc
    have hge : 65 ≤ c.toNat := UInt32.le_iff_toNat_le.mp hc.left
    omega
  unfold Char.toLower
  rw [dif_neg hrange]

theorem lowerAscii_digitText (n : Nat) :
    lowerAscii (Decimal.digitText n) = Decimal.digitText n := by
  have hdigits : ∀ c ∈ Nat.toDigits 10 n, c.toLower = id c := fun c hc =>
    toLower_of_isDigit (Nat.isDigit_of_mem_toDigits (by decide) (by decide) hc)
  unfold lowerAscii Decimal.digitText
  rw [String.toList_ofList, List.map_congr_left hdigits, List.map_id]

end Text

theorem Decimal.digitText_injective {m n : Nat} (h : digitText m = digitText n) : m = n := by
  have hdigits : Nat.toDigits 10 m = Nat.toDigits 10 n := String.ofList_injective h
  have hread := congrArg (fun digits => Nat.ofDigitChars 10 digits 0) hdigits
  simpa [Nat.ofDigitChars_ten_toDigits] using hread

end TransformChain
