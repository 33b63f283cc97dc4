import TransformChain.Yaml.Writing

/-!
# Atoms

What a plain scalar denotes that is written in digits, or that begins with a letter.
-/

namespace TransformChain
namespace Yaml

/-!
## Digits
-/

section Digits

variable {c : Char} {cs : List Char}

theorem digitIn?_of_isDigit (h : c.isDigit = true) : digitIn? 10 c = some (Decimal.digitValue c) := by
  have hrange := Char.isDigit_iff_toNat.mp h
  have hless : c.toNat - '0'.toNat < 10 :=
    Nat.lt_of_le_of_lt (Nat.sub_le_sub_right hrange.right 48) (by decide)
  simp only [digitIn?, h, if_true, if_pos hless]
  rfl

theorem foldl_some {f : Option Nat → Char → Option Nat} {g : Nat → Char → Nat}
    (h : ∀ c ∈ cs, ∀ n, f (some n) c = some (g n c)) (n : Nat) :
    cs.foldl f (some n) = some (cs.foldl g n) := by
  induction cs generalizing n with
  | nil => rfl
  | cons c cs ih =>
      rw [List.forall_mem_cons] at h
      rw [List.foldl_cons, List.foldl_cons, h.left, ih h.right]

theorem natIn?_of_digits (hne : cs ≠ []) (h : ∀ c ∈ cs, c.isDigit = true) :
    natIn? 10 cs = some (Decimal.natOfDigits cs) := by
  have hempty : cs.isEmpty = false := List.isEmpty_eq_false_iff.mpr hne
  rw [natIn?, hempty, if_neg Bool.false_ne_true]
  refine foldl_some (fun c hmem n => ?_) 0
  simp only [digitIn?_of_isDigit (h c hmem)]

theorem natIn?_toDigits (n : Nat) : natIn? 10 (Nat.toDigits 10 n) = some n := by
  have hread : Decimal.natOfDigits (Nat.toDigits 10 n) = n := Nat.ofDigitChars_ten_toDigits
  rw [natIn?_of_digits Nat.toDigits_ne_nil, hread]
  exact fun c hmem => Nat.isDigit_of_mem_toDigits (by decide) (by decide) hmem

theorem head?_toDigits {n : Nat} (hn : 0 < n) : (Nat.toDigits 10 n).head? ≠ some '0' := by
  induction n using Nat.strongRecOn with
  | ind n ih =>
      by_cases hless : n < 10
      · have hdigit : ∀ d < 10, 0 < d → Nat.digitChar d ≠ '0' := by decide
        rw [Nat.toDigits_of_lt_base hless]
        exact fun h => hdigit n hless hn (Option.some.inj h)
      · have hquotient : 0 < n / 10 := by omega
        have hfront := ih (n / 10) (Nat.div_lt_self hn (by decide)) hquotient
        rw [Nat.toDigits_of_base_le (by decide) (Nat.le_of_not_lt hless)]
        cases hdigits : Nat.toDigits 10 (n / 10) with
        | nil => exact absurd hdigits Nat.toDigits_ne_nil
        | cons c rest =>
            rw [hdigits] at hfront
            exact hfront

/-- A number that is written in digits begins with a digit, and with a zero only if it is zero. -/
theorem toDigits_cases (n : Nat) :
    n = 0 ∨ ∃ c rest, Nat.toDigits 10 n = c :: rest ∧ c ≠ '0' ∧ c ≠ '-' ∧ c ≠ '+' := by
  cases n with
  | zero => exact Or.inl rfl
  | succ n =>
      refine Or.inr ?_
      have hhead := head?_toDigits (Nat.succ_pos n)
      cases hdigits : Nat.toDigits 10 (n + 1) with
      | nil => exact absurd hdigits Nat.toDigits_ne_nil
      | cons c rest =>
          have hmem : c ∈ Nat.toDigits 10 (n + 1) := by
            rw [hdigits]
            exact List.mem_cons_self
          have hdigit := Nat.isDigit_of_mem_toDigits (by decide) (by decide) hmem
          rw [hdigits] at hhead
          refine ⟨c, rest, rfl, fun h => hhead (congrArg some h), ?_, ?_⟩
          · rintro rfl
            cases hdigit
          · rintro rfl
            cases hdigit

theorem integer?_digitText (n : Nat) : integer? (Decimal.digitText n) = some (Int.ofNat n) := by
  have htext : (Decimal.digitText n).toList = Nat.toDigits 10 n := String.toList_ofList
  have hread := natIn?_toDigits n
  rcases toDigits_cases n with rfl | ⟨c, rest, hdigits, hzero, hminus, hplus⟩
  · decide
  · rw [hdigits] at hread
    simp [integer?, magnitude?, hasLeadingZero, htext, hdigits, hread, hzero, hminus, hplus]

theorem ofPlain_digitText {n : Nat} (h : Int.ofNat n ≤ Decimal.greatestInt) :
    Atom.ofPlain (Decimal.digitText n) = .int (Int.ofNat n) := by
  have hne (text : String) (hnone : integer? text = none) : (Decimal.digitText n == text) = false := by
    rw [beq_eq_false_iff_ne]
    intro heq
    rw [← heq, integer?_digitText] at hnone
    cases hnone
  have hempty : (Decimal.digitText n).isEmpty = false := by
    rw [Bool.eq_false_iff]
    intro h
    exact beq_eq_false_iff_ne.mp (hne "" (by decide)) (String.isEmpty_iff.mp h)
  have hlow : -Int.ofNat (Nat.pow 2 127) ≤ Int.ofNat n :=
    Int.le_trans (by decide : -Int.ofNat (Nat.pow 2 127) ≤ 0) (Int.natCast_nonneg n)
  have hhigh : Int.ofNat n < Int.ofNat (Nat.pow 2 128) := Int.lt_of_le_of_lt h (by decide)
  simp only [Atom.ofPlain, hempty, isNullText, boolOfText?, hne "null" (by decide),
    hne "Null" (by decide), hne "NULL" (by decide), hne "~" (by decide), hne "true" (by decide),
    hne "True" (by decide), hne "TRUE" (by decide), hne "false" (by decide), hne "False" (by decide),
    hne "FALSE" (by decide), Bool.or_self, Bool.false_eq_true, if_false, boundedInteger?,
    integer?_digitText, isBounded, hlow, hhigh, decide_true, Bool.and_self, if_true]

end Digits

/-!
## Letters
-/

section Letters

variable {s : String} {c : Char} {rest : List Char}

theorem hasLeadingZero_of_isAlpha (hc : c.isAlpha = true) : hasLeadingZero (c :: rest) = false := by
  have hzero : c ≠ '0' := by rintro rfl; cases hc
  have hminus : c ≠ '-' := by rintro rfl; cases hc
  have hplus : c ≠ '+' := by rintro rfl; cases hc
  simp [hasLeadingZero, hzero, hminus, hplus]

theorem isDigit_of_isAlpha (hc : c.isAlpha = true) : c.isDigit = false := by
  rw [Bool.eq_false_iff]
  intro hdigit
  have hrange := Char.isDigit_iff_toNat.mp hdigit
  unfold Char.isAlpha at hc
  rcases Bool.or_eq_true_iff.mp hc with hupper | hlower
  · unfold Char.isUpper at hupper
    have hlow : 65 ≤ c.toNat := UInt32.le_iff_toNat_le.mp (decide_eq_true_eq.mp hupper).left
    exact absurd (Nat.le_trans hlow hrange.right) (by decide)
  · unfold Char.isLower at hlower
    rw [Bool.and_eq_true, decide_eq_true_eq, decide_eq_true_eq] at hlower
    have hlow : 97 ≤ c.toNat := UInt32.le_iff_toNat_le.mp hlower.left
    exact absurd (Nat.le_trans hlow hrange.right) (by decide)

theorem digitIn?_of_isDigit_eq_false (h : c.isDigit = false) : digitIn? 10 c = none := by
  have hbig (n : Nat) : ¬n + 10 < 10 := Nat.not_lt.mpr (Nat.le_add_left 10 n)
  unfold digitIn?
  rw [h, if_neg Bool.false_ne_true]
  by_cases hlower : ('a' ≤ c && c ≤ 'z') = true
  · rw [if_pos hlower]
    exact if_neg (hbig _)
  · rw [if_neg hlower]
    by_cases hupper : ('A' ≤ c && c ≤ 'Z') = true
    · rw [if_pos hupper]
      exact if_neg (hbig _)
    · rw [if_neg hupper]

theorem foldl_none {f : Option Nat → Char → Option Nat} (h : ∀ c, f none c = none)
    (cs : List Char) : cs.foldl f none = none := by
  induction cs with
  | nil => rfl
  | cons c cs ih => rw [List.foldl_cons, h, ih]

theorem natIn?_of_isAlpha (hc : c.isAlpha = true) : natIn? 10 (c :: rest) = none := by
  unfold natIn?
  rw [List.isEmpty_cons, if_neg Bool.false_ne_true, List.foldl_cons,
    digitIn?_of_isDigit_eq_false (isDigit_of_isAlpha hc)]
  exact foldl_none (fun _ => rfl) rest

theorem integer?_of_isAlpha (hs : s.toList = c :: rest) (hc : c.isAlpha = true) : integer? s = none := by
  have hzero : c ≠ '0' := by rintro rfl; cases hc
  have hminus : c ≠ '-' := by rintro rfl; cases hc
  have hplus : c ≠ '+' := by rintro rfl; cases hc
  simp [integer?, hs, hasLeadingZero_of_isAlpha hc, magnitude?, natIn?_of_isAlpha hc, hzero, hminus,
    hplus]

theorem float?_of_isAlpha (hs : s.toList = c :: rest) (hc : c.isAlpha = true) : float? s = none := by
  have hminus : c ≠ '-' := by rintro rfl; cases hc
  have hplus : c ≠ '+' := by rintro rfl; cases hc
  have hpoint : c ≠ '.' := by rintro rfl; cases hc
  have hdigit := isDigit_of_isAlpha hc
  have hne (text : String) (h : text.toList.head? = some '.') : s ≠ text := by
    rintro rfl
    rw [hs] at h
    exact hpoint (Option.some.inj h)
  have hinfinity : isInfinityText s = false := by
    simp only [isInfinityText, beq_eq_false_iff_ne.mpr (hne ".inf" rfl),
      beq_eq_false_iff_ne.mpr (hne ".Inf" rfl), beq_eq_false_iff_ne.mpr (hne ".INF" rfl), Bool.or_self]
  have hofList : String.ofList (c :: rest) = s := by rw [← hs, String.ofList_toList]
  have hfloat : unsignedFloat? (c :: rest) = none := by
    simp [unsignedFloat?, hdigit, hpoint]
  simp only [float?, beq_eq_false_iff_ne.mpr (hne ".nan" rfl), beq_eq_false_iff_ne.mpr (hne ".NaN" rfl),
    beq_eq_false_iff_ne.mpr (hne ".NAN" rfl), Bool.or_self, Bool.false_eq_true, if_false, hs]
  split
  case h_1 heq => exact absurd (List.cons.inj heq).left hminus
  case h_2 heq => exact absurd (List.cons.inj heq).left hplus
  case h_3 => simp only [hofList, hinfinity, Bool.false_eq_true, if_false, hfloat]

/-- A name is no number, so it is written as it is unless it stands for nothing or for a truth
value. -/
theorem readsAsText_of_isAlpha (hs : s.toList = c :: rest) (hc : c.isAlpha = true)
    (hnull : isNullText s = false) (hbool : boolOfText? s = none) : readsAsText s = true := by
  have hempty : s.isEmpty = false := by
    rw [Bool.eq_false_iff]
    intro h
    rw [String.isEmpty_iff.mp h] at hs
    cases hs
  simp [readsAsText, Atom.ofPlain, hempty, hnull, hbool, boundedInteger?, integer?_of_isAlpha hs hc,
    float?_of_isAlpha hs hc, hs, hasLeadingZero_of_isAlpha hc]

theorem scalarLines_of_isAlpha (halpha : s.toList.head?.any Char.isAlpha = true)
    (hnull : isNullText s = false) (hbool : boolOfText? s = none)
    (hplain : allowsPlain s.toList = true) (indent : Nat) :
    scalarLines indent s = s.toList ++ ['\n'] := by
  have hbreak : '\n' ∉ s.toList := by
    intro h
    simp only [allowsPlain, Bool.and_eq_true, Bool.not_eq_true'] at hplain
    have hnone := List.any_eq_false.mp hplain.left.left.left.right '\n' h
    exact hnone rfl
  cases hs : s.toList with
  | nil =>
      rw [hs] at halpha
      cases halpha
  | cons c rest =>
      rw [hs] at halpha hbreak hplain
      simp [scalarLines, scalarForm, hs, hbreak, readsAsText_of_isAlpha hs halpha hnull hbool, hplain]

end Letters

end Yaml
end TransformChain
