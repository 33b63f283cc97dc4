import Mathlib
import TransformChain.Number.Nearest

/-!
# Rounding integers to floats

A float keeps the first 53 binary digits of an integer.  What is left of it is rounded to the
nearest such number, so rounding never turns two integers around, and it changes none up to 2^53.
-/

namespace TransformChain
namespace Number

open Float.Model Float.Model.UnpackedFloat

/-!
## Dropped digits
-/

/-- In units of `2 ^ s` the whole number `q` is nearest to `n`, and it is even where another one is
as near. -/
structure NearestUnits (n s q : Nat) : Prop where
  below : 2 * (q * 2 ^ s) ≤ 2 * n + 2 ^ s
  above : 2 * n ≤ 2 * (q * 2 ^ s) + 2 ^ s
  even_below : 2 * (q * 2 ^ s) = 2 * n + 2 ^ s → q % 2 = 0
  even_above : 2 * n = 2 * (q * 2 ^ s) + 2 ^ s → q % 2 = 0

/-- What a shifted mantissa knows of the number it comes from: the rest, compared with half a
unit. -/
structure Shifted (n s rest : Nat) (em : ExtendedMantissa) : Prop where
  split : n = em.mantissa * 2 ^ s + rest
  small : rest < 2 ^ s
  round : em.roundBit = true ↔ 2 ^ s ≤ 2 * rest
  sticky : em.stickyBit = true ↔ rest ≠ 0 ∧ 2 * rest ≠ 2 ^ s

theorem Shifted.shiftRightOne {n s rest : Nat} {em : ExtendedMantissa} (h : Shifted n s rest em) :
    Shifted n (s + 1) (em.mantissa % 2 * 2 ^ s + rest) em.shiftRightOne := by
  have hsmall := h.small
  have hround := h.round
  have hsticky := h.sticky
  have hpow : 2 ^ (s + 1) = 2 * 2 ^ s := Nat.pow_succ'
  have hbit : (em.mantissa % 2 != 0) = true ↔ em.mantissa % 2 = 1 := by
    rw [bne_iff_ne]
    omega
  have hor : (em.roundBit || em.stickyBit) = true ↔ rest ≠ 0 := by
    rw [Bool.or_eq_true, hround, hsticky]
    omega
  constructor
  · change n = em.mantissa / 2 * 2 ^ (s + 1) + (em.mantissa % 2 * 2 ^ s + rest)
    calc n = (2 * (em.mantissa / 2) + em.mantissa % 2) * 2 ^ s + rest := by
            rw [Nat.div_add_mod, ← h.split]
      _ = em.mantissa / 2 * 2 ^ (s + 1) + (em.mantissa % 2 * 2 ^ s + rest) := by
            rw [hpow]
            ring
  · rcases Nat.mod_two_eq_zero_or_one em.mantissa with hzero | hone
    · rw [hzero, hpow]
      omega
    · rw [hone, hpow]
      omega
  · change (em.mantissa % 2 != 0) = true ↔ _
    rw [hbit, hpow]
    rcases Nat.mod_two_eq_zero_or_one em.mantissa with hzero | hone
    · rw [hzero]
      omega
    · rw [hone]
      omega
  · change (em.roundBit || em.stickyBit) = true ↔ _
    rw [hor, hpow]
    rcases Nat.mod_two_eq_zero_or_one em.mantissa with hzero | hone
    · rw [hzero]
      omega
    · rw [hone]
      omega

theorem exists_shifted (n s : Nat) :
    ∃ rest, Shifted n s rest (ExtendedMantissa.ofMantissaAndAccuracy n .exact >>> s) := by
  induction s with
  | zero =>
      refine ⟨0, ?_⟩
      change Shifted n 0 0 ⟨n, false, false⟩
      constructor <;> simp
  | succ s ih =>
      rcases ih with ⟨rest, h⟩
      exact ⟨_, h.shiftRightOne⟩

theorem Shifted.nearestUnits {n s rest : Nat} {em : ExtendedMantissa} (h : Shifted n s rest em) :
    NearestUnits n s em.roundedMantissa := by
  rcases h with ⟨hsplit, hsmall, hround, hsticky⟩
  rcases em with ⟨m, round, sticky⟩
  dsimp only at hsplit hround hsticky
  cases round <;> cases sticky <;>
    simp only [Bool.false_eq_true, false_iff, true_iff, not_and, not_not] at hround hsticky <;>
    simp only [ExtendedMantissa.roundedMantissa, ExtendedMantissa.accuracy,
      Accuracy.roundToNearestEven]
  · constructor <;> omega
  · constructor <;> omega
  · rcases Nat.mod_two_eq_zero_or_one m with hzero | hone
    · rw [hzero, Nat.add_zero]
      constructor <;> omega
    · rw [hone]
      have hnext : (m + 1) * 2 ^ s = m * 2 ^ s + 2 ^ s := Nat.succ_mul m (2 ^ s)
      constructor <;> rw [hnext] <;> omega
  · have hnext : (m + 1) * 2 ^ s = m * 2 ^ s + 2 ^ s := Nat.succ_mul m (2 ^ s)
    constructor <;> rw [hnext] <;> omega

theorem NearestUnits.mono {a b s p q : Nat} (ha : NearestUnits a s p) (hb : NearestUnits b s q)
    (hab : a ≤ b) : p ≤ q := by
  by_contra hlt
  have hunit : 0 < 2 ^ s := Nat.two_pow_pos s
  have hstep : (q + 1) * 2 ^ s ≤ p * 2 ^ s := Nat.mul_le_mul_right _ (by omega)
  have hsucc : (q + 1) * 2 ^ s = q * 2 ^ s + 2 ^ s := Nat.succ_mul q (2 ^ s)
  have hbelow := ha.below
  have habove := hb.above
  -- Both are half a unit away from what they are rounded to, so both results are even.
  have hp := ha.even_below (by omega)
  have hq := hb.even_above (by omega)
  have hnext : p * 2 ^ s = (q + 1) * 2 ^ s := by omega
  have heq : p = q + 1 := Nat.eq_of_mul_eq_mul_right hunit hnext
  omega

theorem NearestUnits.exact {n s q : Nat} (h : NearestUnits n s q) (hdvd : 2 ^ s ∣ n) :
    q * 2 ^ s = n := by
  rcases hdvd with ⟨k, rfl⟩
  have hunit : 0 < 2 ^ s := Nat.two_pow_pos s
  have hbelow := h.below
  have habove := h.above
  have hk : 2 ^ s * k = k * 2 ^ s := Nat.mul_comm _ _
  rcases Nat.lt_trichotomy q k with hlt | rfl | hlt
  · have hstep : (q + 1) * 2 ^ s ≤ k * 2 ^ s := Nat.mul_le_mul_right _ (by omega)
    have hsucc : (q + 1) * 2 ^ s = q * 2 ^ s + 2 ^ s := Nat.succ_mul q (2 ^ s)
    omega
  · omega
  · have hstep : (k + 1) * 2 ^ s ≤ q * 2 ^ s := Nat.mul_le_mul_right _ (by omega)
    have hsucc : (k + 1) * 2 ^ s = k * 2 ^ s + 2 ^ s := Nat.succ_mul k (2 ^ s)
    omega

/-!
## Mantissa and exponent
-/

/-- The number is nearest to `m * 2 ^ e` among those with 53 binary digits.  Its own digits are
shifted up by 52 places, so that the units are whole; a mantissa that needs one digit more is
carried. -/
inductive Rounds (n : Nat) : Nat → Int → Prop where
  | kept {q : Nat} : NearestUnits (n * 2 ^ 52) n.log2 q → q < 2 ^ 53 → Rounds n q (n.log2 - 52)
  | carried : NearestUnits (n * 2 ^ 52) n.log2 (2 ^ 53) → Rounds n (2 ^ 52) (n.log2 - 51)

theorem shifted_bounds {n : Nat} (hn : 0 < n) :
    2 ^ 52 * 2 ^ n.log2 ≤ n * 2 ^ 52 ∧ n * 2 ^ 52 < 2 ^ 53 * 2 ^ n.log2 := by
  have hlow : 2 ^ n.log2 ≤ n := Nat.log2_self_le (Nat.ne_of_gt hn)
  have hhigh : n < 2 ^ (n.log2 + 1) := Nat.lt_log2_self
  rw [Nat.pow_succ] at hhigh
  constructor
  · calc 2 ^ 52 * 2 ^ n.log2 ≤ 2 ^ 52 * n := Nat.mul_le_mul_left _ hlow
      _ = n * 2 ^ 52 := Nat.mul_comm _ _
  · omega

theorem NearestUnits.mantissa_bounds {n q : Nat} (hn : 0 < n)
    (h : NearestUnits (n * 2 ^ 52) n.log2 q) : 2 ^ 52 ≤ q ∧ q ≤ 2 ^ 53 := by
  have hunit : 0 < 2 ^ n.log2 := Nat.two_pow_pos _
  rcases shifted_bounds hn with ⟨hlow, hhigh⟩
  have hbelow := h.below
  have habove := h.above
  constructor
  · by_contra hlt
    have hstep : (q + 1) * 2 ^ n.log2 ≤ 2 ^ 52 * 2 ^ n.log2 := Nat.mul_le_mul_right _ (by omega)
    rw [Nat.succ_mul] at hstep
    omega
  · by_contra hlt
    have hstep : (2 ^ 53 + 1) * 2 ^ n.log2 ≤ q * 2 ^ n.log2 := Nat.mul_le_mul_right _ (by omega)
    rw [Nat.succ_mul] at hstep
    omega

theorem Rounds.mantissa_bounds {n m : Nat} {e : Int} (hn : 0 < n) (h : Rounds n m e) :
    2 ^ 52 ≤ m ∧ m < 2 ^ 53 := by
  cases h with
  | kept hq hsmall => exact ⟨(hq.mantissa_bounds hn).left, hsmall⟩
  | carried => decide

theorem Rounds.exponent_bounds {n m : Nat} {e : Int} (h : Rounds n m e) :
    (n.log2 : Int) - 52 ≤ e ∧ e ≤ n.log2 - 51 := by
  cases h with
  | kept => omega
  | carried => omega

theorem Rounds.mono {a b m n : Nat} {d e : Int} (ha : 0 < a) (hab : a ≤ b) (hm : Rounds a m d)
    (hn : Rounds b n e) : d < e ∨ (d = e ∧ m ≤ n) := by
  have hb : 0 < b := Nat.lt_of_lt_of_le ha hab
  have hlog : a.log2 ≤ b.log2 := (Nat.le_log2 (Nat.ne_of_gt hb)).mpr
    (Nat.le_trans (Nat.log2_self_le (Nat.ne_of_gt ha)) hab)
  have hmantissa := (hn.mantissa_bounds hb).left
  rcases Nat.lt_or_eq_of_le hlog with hless | heq
  · have hexponent := hn.exponent_bounds.left
    cases hm with
    | kept => omega
    | carried =>
        rcases Int.lt_or_eq_of_le (show (a.log2 : Int) - 51 ≤ e by omega) with hlt | heq
        · exact Or.inl hlt
        · exact Or.inr ⟨heq, hmantissa⟩
  · have hscaled : a * 2 ^ 52 ≤ b * 2 ^ 52 := Nat.mul_le_mul_right _ hab
    cases hm with
    | kept hp hsmall =>
        cases hn with
        | kept hq =>
            rw [heq] at hp
            exact Or.inr ⟨by rw [heq], hp.mono hq hscaled⟩
        | carried => omega
    | carried hp =>
        cases hn with
        | kept hq hsmall =>
            rw [heq] at hp
            have hle := hp.mono hq hscaled
            omega
        | carried => exact Or.inr ⟨by rw [heq], Nat.le_refl _⟩

theorem Rounds.exact {n m : Nat} {e : Int} (hn : 0 < n) (hsmall : n ≤ 2 ^ 53)
    (h : Rounds n m e) : e = n.log2 - 52 ∧ m * 2 ^ n.log2 = n * 2 ^ 52 := by
  have hdvd : 2 ^ n.log2 ∣ n * 2 ^ 52 := by
    rcases Nat.lt_or_eq_of_le hsmall with hlt | rfl
    · have hlog : n.log2 < 53 := (Nat.log2_lt (Nat.ne_of_gt hn)).mpr hlt
      exact Nat.dvd_trans (Nat.pow_dvd_pow 2 (by omega)) (Nat.dvd_mul_left _ _)
    · rw [Nat.log2_two_pow]
      exact Nat.dvd_mul_right _ _
  cases h with
  | kept hq => exact ⟨rfl, hq.exact hdvd⟩
  | carried hq =>
      have hhigh := (shifted_bounds hn).right
      have hexact := hq.exact hdvd
      omega

/-!
## Floats of integers
-/

theorem targetExponent_eq {m : Nat} {e : Int} (h : -1021 ≤ m.log2 + e) :
    Format.binary64.targetExponent (totalExponent m e) = m.log2 + e - 52 := by
  simp only [Format.targetExponent, totalExponent, Format.mantissaBits, Format.minExponent]
  norm_num
  omega

theorem shift_kept {m : Nat} {e : Int} (hlow : 2 ^ 52 ≤ m) (hhigh : m < 2 ^ 53) (he : -1021 ≤ e) :
    shiftToTargetExponent .binary64 m e .exact = (⟨m, false, false⟩, e) := by
  have hlog : m.log2 = 52 := (Nat.log2_eq_iff (by omega)).mpr ⟨hlow, hhigh⟩
  simp only [shiftToTargetExponent, targetExponent_eq (show -1021 ≤ m.log2 + e by omega),
    shiftToExponent, hlog]
  have hzero : (((52 : Nat) : Int) + e - 52 - e).toNat = 0 := by omega
  rw [hzero]
  simp [HShiftRight.hShiftRight, Nat.repeat, ExtendedMantissa.ofMantissaAndAccuracy]

theorem shift_carried {e : Int} (he : -1021 ≤ e) :
    shiftToTargetExponent .binary64 (2 ^ 53) e .exact = (⟨2 ^ 52, false, false⟩, e + 1) := by
  have hlog : (2 ^ 53).log2 = 53 := Nat.log2_two_pow
  simp only [shiftToTargetExponent, targetExponent_eq (show -1021 ≤ (2 ^ 53).log2 + e by omega),
    shiftToExponent, hlog]
  have hone : (((53 : Nat) : Int) + e - 52 - e).toNat = 1 := by omega
  rw [hone]
  rfl

theorem NearestUnits.of_eq {n s q : Nat} (h : q * 2 ^ s = n) : NearestUnits n s q := by
  have hunit : 0 < 2 ^ s := Nat.two_pow_pos s
  constructor <;> omega

theorem NearestUnits.scaled {n s q : Nat} (h : NearestUnits n s q) (t : Nat) :
    NearestUnits (n * 2 ^ t) (s + t) q := by
  have hunit : 0 < 2 ^ t := Nat.two_pow_pos t
  have hq : q * 2 ^ (s + t) = q * 2 ^ s * 2 ^ t := by rw [Nat.pow_add, Nat.mul_assoc]
  have hleft : (2 * n + 2 ^ s) * 2 ^ t = 2 * (n * 2 ^ t) + 2 ^ (s + t) := by
    rw [Nat.pow_add, Nat.add_mul, Nat.mul_assoc]
  have hright : (2 * (q * 2 ^ s) + 2 ^ s) * 2 ^ t = 2 * (q * 2 ^ (s + t)) + 2 ^ (s + t) := by
    rw [hq, Nat.pow_add, Nat.add_mul, Nat.mul_assoc]
  constructor
  · rw [← hleft, hq, ← Nat.mul_assoc]
    exact Nat.mul_le_mul_right _ h.below
  · rw [← hright, ← Nat.mul_assoc]
    exact Nat.mul_le_mul_right _ h.above
  · rw [← hleft, hq, ← Nat.mul_assoc]
    exact fun heq => h.even_below (Nat.eq_of_mul_eq_mul_right hunit heq)
  · rw [← hright, ← Nat.mul_assoc]
    exact fun heq => h.even_above (Nat.eq_of_mul_eq_mul_right hunit heq)

/-- A short integer is filled up to 53 digits; of a long one the digits behind the 53rd are
dropped. -/
theorem exists_firstShift {n : Nat} (hn : 0 < n) :
    ∃ em, NearestUnits (n * 2 ^ 52) n.log2 (ExtendedMantissa.roundedMantissa em) ∧
      shiftToTargetExponent .binary64 (decreaseExponent n 0 (n.log2 - 52)).1
        (decreaseExponent n 0 (n.log2 - 52)).2 .exact = (em, (n.log2 : Int) - 52) := by
  rcases Nat.le_total n.log2 52 with hshort | hlong
  · have hfill : n * 2 ^ (52 - n.log2) * 2 ^ n.log2 = n * 2 ^ 52 := by
      rw [Nat.mul_assoc, ← Nat.pow_add, Nat.sub_add_cancel hshort]
    rcases shifted_bounds hn with ⟨hlow, hhigh⟩
    rw [← hfill] at hlow hhigh
    have hunit : 0 < 2 ^ n.log2 := Nat.two_pow_pos _
    have hfilled : decreaseExponent n 0 (n.log2 - 52) =
        (n * 2 ^ (52 - n.log2), (n.log2 : Int) - 52) := by
      have hamount : (0 - ((n.log2 : Int) - 52)).toNat = 52 - n.log2 := by omega
      simp only [decreaseExponent, hamount, Nat.shiftLeft_eq, Prod.mk.injEq, true_and]
      omega
    rw [hfilled]
    refine ⟨⟨n * 2 ^ (52 - n.log2), false, false⟩, .of_eq hfill, ?_⟩
    exact shift_kept (Nat.le_of_mul_le_mul_right hlow hunit)
      (Nat.lt_of_mul_lt_mul_right hhigh) (by omega)
  · have hwhole : decreaseExponent n 0 (n.log2 - 52) = (n, 0) := by
      have hamount : (0 - ((n.log2 : Int) - 52)).toNat = 0 := by omega
      simp only [decreaseExponent, hamount]
      rfl
    rw [hwhole]
    rcases exists_shifted n (n.log2 - 52) with ⟨rest, hshifted⟩
    have hnearest := hshifted.nearestUnits.scaled 52
    rw [Nat.sub_add_cancel hlong] at hnearest
    refine ⟨ExtendedMantissa.ofMantissaAndAccuracy n .exact >>> (n.log2 - 52), hnearest, ?_⟩
    have hamount : ((n.log2 : Int) + 0 - 52 - 0).toNat = n.log2 - 52 := by omega
    simp only [shiftToTargetExponent, targetExponent_eq (show -1021 ≤ (n.log2 : Int) + 0 by omega),
      shiftToExponent, hamount, Prod.mk.injEq, true_and]
    omega

theorem exists_rounds {n : Nat} (hn : 0 < n) :
    ∃ m e, ∃ hm : 0 < m, Rounds n m e ∧
      ∀ sign, UnpackedFloat.round .binary64 sign n 0 = .finite sign m e hm := by
  rcases exists_firstShift hn with ⟨em, hnearest, hshift⟩
  have htarget : Format.binary64.targetExponent (totalExponent n 0) = (n.log2 : Int) - 52 := by
    rw [targetExponent_eq (show -1021 ≤ (n.log2 : Int) + 0 by omega), Int.add_zero]
  have hround : ∀ sign, UnpackedFloat.round .binary64 sign n 0 =
      roundWithAccuracy .binary64 sign (decreaseExponent n 0 (n.log2 - 52)).1
        (decreaseExponent n 0 (n.log2 - 52)).2 .exact := by
    intro sign
    unfold UnpackedFloat.round
    rw [htarget]
  rcases hnearest.mantissa_bounds hn with ⟨hlow, hhigh⟩
  rcases Nat.lt_or_eq_of_le hhigh with hsmall | hcarry
  · refine ⟨em.roundedMantissa, n.log2 - 52, by omega, .kept hnearest hsmall, fun sign => ?_⟩
    rw [hround]
    unfold roundWithAccuracy
    rw [hshift]
    dsimp only
    rw [shift_kept hlow hsmall (by omega)]
    have hne : em.roundedMantissa ≠ 0 := by omega
    exact dif_neg hne
  · rw [hcarry] at hnearest
    refine ⟨2 ^ 52, n.log2 - 51, by decide, .carried hnearest, fun sign => ?_⟩
    rw [hround]
    unfold roundWithAccuracy
    rw [hshift]
    dsimp only
    rw [hcarry, shift_carried (by omega)]
    have hexponent : (n.log2 : Int) - 52 + 1 = n.log2 - 51 := by omega
    rw [hexponent]
    rfl

/-!
## Bits of floats
-/

theorem unpack_pack_zero (sign : Sign) :
    UnpackedFloat.unpack .binary64 (UnpackedFloat.pack .binary64 (.zero sign)) = .zero sign := by
  cases sign <;> rfl

/-- A float with 53 digits keeps them in its bits, but for the first one, which is known. -/
theorem unpack_pack_finite {m : Nat} {e : Int} (sign : Sign) (hm : 0 < m) (hlow : 2 ^ 52 ≤ m)
    (hhigh : m < 2 ^ 53) (hmin : -1021 ≤ e) (hmax : e ≤ 970) :
    UnpackedFloat.unpack .binary64 (UnpackedFloat.pack .binary64 (.finite sign m e hm)) =
      .finite sign m e hm := by
  have hlog : m.log2 + 1 = Format.binary64.mantissaBits := by
    rw [(Nat.log2_eq_iff (by omega)).mpr ⟨hlow, hhigh⟩]
    rfl
  have hbias : Format.binary64.exponentBias = 1023 := rfl
  have hfits : ¬2 ^ 11 ≤ (e + 1023 + 52).toNat + 1 := by omega
  have hpack : UnpackedFloat.pack .binary64 (.finite sign m e hm) =
      packComponents .binary64 sign (BitVec.ofNat 11 (e + 1023 + 52).toNat) (BitVec.ofNat 52 m) := by
    simp only [UnpackedFloat.pack, hbias]
    exact (if_neg hfits).trans (if_pos hlog)
  have hexponent : (BitVec.ofNat 11 (e + 1023 + 52).toNat).toNat = (e + 1023 + 52).toNat := by
    rw [BitVec.toNat_ofNat, Nat.mod_eq_of_lt (by omega)]
  have hnotall : BitVec.ofNat 11 (e + 1023 + 52).toNat ≠ -1#11 := by
    intro heq
    have hvalue := congrArg BitVec.toNat heq
    rw [hexponent] at hvalue
    change (e + 1023 + 52).toNat = 2047 at hvalue
    omega
  have hnotzero : BitVec.ofNat 11 (e + 1023 + 52).toNat ≠ 0#11 := by
    intro heq
    have hvalue := congrArg BitVec.toNat heq
    rw [hexponent] at hvalue
    change (e + 1023 + 52).toNat = 0 at hvalue
    omega
  have hmantissa : (1#1 ++ BitVec.ofNat 52 m).toNat = m := by
    rw [BitVec.toNat_append, ← Nat.shiftLeft_add_eq_or_of_lt (BitVec.isLt _), BitVec.toNat_ofNat,
      Nat.shiftLeft_eq]
    change 1 * 2 ^ 52 + m % 2 ^ 52 = m
    omega
  rw [hpack]
  simp only [UnpackedFloat.unpack, unpackMantissa_packComponents, unpackExponent_packComponents,
    unpackSign_packComponents, hnotall, hnotzero, if_false, hmantissa, hexponent]
  congr 1
  · cases sign <;> rfl
  · rw [hbias]
    omega

/-!
## Order of rounded integers
-/

inductive RoundsTo : Int → UnpackedFloat → Prop where
  | zero : RoundsTo 0 (.zero .positive)
  | positive {n m : Nat} {e : Int} (hm : 0 < m) :
      0 < n → Rounds n m e → RoundsTo n (.finite .positive m e hm)
  | negative {n m : Nat} {e : Int} (hm : 0 < m) :
      0 < n → Rounds n m e → RoundsTo (-n) (.finite .negative m e hm)

theorem roundsTo_ofInt (k : Int) : RoundsTo k (UnpackedFloat.ofInt .binary64 k) := by
  unfold UnpackedFloat.ofInt UnpackedFloat.normalize
  rcases Int.lt_trichotomy k 0 with hneg | rfl | hpos
  · obtain ⟨n, rfl⟩ : ∃ n : Nat, k = -n := ⟨k.natAbs, by omega⟩
    have hn : 0 < n := by omega
    rcases exists_rounds hn with ⟨m, e, hm, hrounds, hround⟩
    have hcompare : compare (-(n : Int)) 0 = .lt := compare_lt_iff_lt.mpr hneg
    have hsize : (- -(n : Int)).toNat = n := by omega
    simp only [hcompare, hsize, hround]
    exact .negative hm hn hrounds
  · exact .zero
  · obtain ⟨n, rfl⟩ : ∃ n : Nat, k = n := ⟨k.toNat, by omega⟩
    have hn : 0 < n := by omega
    rcases exists_rounds hn with ⟨m, e, hm, hrounds, hround⟩
    have hcompare : compare (n : Int) 0 = .gt := compare_gt_iff_gt.mpr hpos
    simp only [hcompare, Int.toNat_natCast, hround]
    exact .positive hm hn hrounds

theorem Rounds.compare_le {a b m n : Nat} {d e : Int} (ha : 0 < a) (hab : a ≤ b)
    (hm : Rounds a m d) (hn : Rounds b n e) :
    (compare d e).then (compare m n) = .lt ∨
      ((compare d e).then (compare m n) = .eq ∧ d = e ∧ m = n) := by
  rcases hm.mono ha hab hn with hexponent | ⟨rfl, hmantissa⟩
  · rw [compare_lt_iff_lt.mpr hexponent]
    exact Or.inl rfl
  · rw [compare_eq_iff_eq.mpr rfl]
    rcases Nat.lt_or_eq_of_le hmantissa with hless | rfl
    · exact Or.inl (compare_lt_iff_lt.mpr hless)
    · exact Or.inr ⟨compare_eq_iff_eq.mpr rfl, rfl, rfl⟩

theorem then_swap (d e : Int) (m n : Nat) :
    ((compare d e).then (compare m n)).swap = (compare e d).then (compare n m) := by
  rw [Ordering.swap_then, ← Std.OrientedOrd.eq_swap, ← Std.OrientedOrd.eq_swap]

theorem RoundsTo.compare_le {i j : Int} {x y : UnpackedFloat} (hx : RoundsTo i x)
    (hy : RoundsTo j y) (hij : i ≤ j) :
    x.compare y = some .lt ∨ (x.compare y = some .eq ∧ x = y) := by
  cases hx with
  | zero =>
      cases hy with
      | zero => exact Or.inr ⟨rfl, rfl⟩
      | positive => exact Or.inl rfl
      | negative _ hn => omega
  | positive hm hn hrounds =>
      cases hy with
      | zero => omega
      | positive _ _ hrounds' =>
          rcases hrounds.compare_le hn (by omega) hrounds' with hlt | ⟨heq, rfl, rfl⟩
          · exact Or.inl (congrArg some hlt)
          · exact Or.inr ⟨congrArg some heq, rfl⟩
      | negative _ hn' => omega
  | negative hm hn hrounds =>
      cases hy with
      | zero => exact Or.inl rfl
      | positive => exact Or.inl rfl
      | negative _ hn' hrounds' =>
          rcases hrounds'.compare_le hn' (by omega) hrounds with hlt | ⟨heq, rfl, rfl⟩
          · exact Or.inl (congrArg some ((then_swap ..).trans hlt))
          · exact Or.inr ⟨congrArg some ((then_swap ..).trans heq), rfl⟩

theorem compare_swap (x y : UnpackedFloat) : y.compare x = (x.compare y).map Ordering.swap := by
  cases x with
  | notANumber => cases y <;> rfl
  | infinity s | zero s =>
      cases y with
      | notANumber => cases s <;> rfl
      | infinity t | zero t | finite t => cases s <;> cases t <;> rfl
  | finite s m d hm =>
      cases y with
      | notANumber => rfl
      | infinity t | zero t => cases s <;> cases t <;> rfl
      | finite t n e hn =>
          cases s <;> cases t
          · exact congrArg (fun o => some o.swap) (then_swap d e m n).symm
          · rfl
          · rfl
          · exact congrArg some (then_swap d e m n).symm

/-!
## Floats nearest to integers
-/

theorem natAbs_le (i : Int64) : i.toInt.natAbs ≤ 2 ^ 63 := by
  have hlow := i.le_toInt
  have hhigh := i.toInt_lt
  omega

theorem Rounds.exponent_le {n m : Nat} {e : Int} (hn : 0 < n) (hsize : n ≤ 2 ^ 63)
    (h : Rounds n m e) : -52 ≤ e ∧ e ≤ 12 := by
  have hlog : n.log2 < 64 :=
    (Nat.log2_lt (Nat.ne_of_gt hn)).mpr (Nat.lt_of_le_of_lt hsize (by decide))
  have hbounds := h.exponent_bounds
  omega

theorem RoundsTo.unpack_pack {k : Int} {x : UnpackedFloat} (h : RoundsTo k x)
    (hsize : k.natAbs ≤ 2 ^ 63) :
    UnpackedFloat.unpack .binary64 (UnpackedFloat.pack .binary64 x) = x := by
  cases h with
  | zero => exact unpack_pack_zero .positive
  | positive hm hn hrounds | negative hm hn hrounds =>
      rcases hrounds.mantissa_bounds hn with ⟨hlow, hhigh⟩
      rcases hrounds.exponent_le hn (by omega) with ⟨hmin, hmax⟩
      exact unpack_pack_finite _ hm hlow hhigh (by omega) (by omega)

theorem roundsTo_nearest (i : Int64) : RoundsTo i.toInt (nearest i).toModel.unpack := by
  have h := roundsTo_ofInt i.toInt
  have hunpack := h.unpack_pack (natAbs_le i)
  change RoundsTo i.toInt (UnpackedFloat.unpack .binary64
    (UnpackedFloat.pack .binary64 (UnpackedFloat.ofInt .binary64 i.toInt)))
  rw [hunpack]
  exact h

theorem nearest_eq_iff {i j : Int64} :
    nearest i = nearest j ↔ (nearest i).toModel.unpack = (nearest j).toModel.unpack := by
  constructor
  · exact fun h => congrArg (fun x : Float => x.toModel.unpack) h
  · intro h
    have hi := (roundsTo_ofInt i.toInt).unpack_pack (natAbs_le i)
    have hj := (roundsTo_ofInt j.toInt).unpack_pack (natAbs_le j)
    have hof : UnpackedFloat.ofInt .binary64 i.toInt = UnpackedFloat.ofInt .binary64 j.toInt :=
      hi.symm.trans (h.trans hj)
    exact congrArg (fun x => Float.ofModel (Float.Model.pack x)) hof

theorem compare_nearest_of_le {i j : Int64} (hij : i.toInt ≤ j.toInt) :
    (nearest i).toModel.compare (nearest j).toModel =
      some (if nearest i = nearest j then .eq else compare i.toInt j.toInt) := by
  unfold Float.Model.compare
  rcases (roundsTo_nearest i).compare_le (roundsTo_nearest j) hij with hlt | ⟨heq, hsame⟩
  · have hne : nearest i ≠ nearest j := by
      intro hsame
      have hswap := compare_swap (nearest j).toModel.unpack (nearest j).toModel.unpack
      rw [hsame] at hlt
      rw [hlt] at hswap
      cases hswap
    have hless : i.toInt < j.toInt := by
      refine lt_of_le_of_ne hij fun heq => hne ?_
      rw [Int64.toInt_inj.mp heq]
    rw [hlt, if_neg hne, compare_lt_iff_lt.mpr hless]
  · rw [heq, if_pos (nearest_eq_iff.mpr hsame)]

/-- Rounded integers compare as the integers do, unless they are rounded to the same float. -/
theorem compare_nearest (i j : Int64) :
    (nearest i).toModel.compare (nearest j).toModel =
      some (if nearest i = nearest j then .eq else compare i.toInt j.toInt) := by
  rcases Int.le_total i.toInt j.toInt with hij | hji
  · exact compare_nearest_of_le hij
  · have hswapped := compare_nearest_of_le hji
    unfold Float.Model.compare at hswapped ⊢
    rw [compare_swap, hswapped]
    by_cases hsame : nearest j = nearest i
    · rw [if_pos hsame, if_pos hsame.symm]
      rfl
    · rw [if_neg hsame, if_neg (Ne.symm hsame), Std.OrientedOrd.eq_swap (a := i.toInt)]
      rfl

theorem Rounds.injective {a b m : Nat} {e : Int} (ha : 0 < a) (hb : 0 < b) (hasmall : a ≤ 2 ^ 53)
    (hbsmall : b ≤ 2 ^ 53) (h : Rounds a m e) (h' : Rounds b m e) : a = b := by
  rcases h.exact ha hasmall with ⟨he, hvalue⟩
  rcases h'.exact hb hbsmall with ⟨he', hvalue'⟩
  have hlog : a.log2 = b.log2 := by omega
  rw [hlog, hvalue'] at hvalue
  exact (Nat.eq_of_mul_eq_mul_right (Nat.two_pow_pos 52) hvalue).symm

theorem nearest_injective {i j : Int64} (hi : i.toInt.natAbs ≤ 2 ^ 53)
    (hj : j.toInt.natAbs ≤ 2 ^ 53) (h : nearest i = nearest j) : i = j := by
  have hx := roundsTo_nearest i
  have hy := roundsTo_nearest j
  rw [h] at hx
  apply Int64.toInt_inj.mp
  generalize i.toInt = k at *
  generalize j.toInt = l at *
  generalize (nearest j).toModel.unpack = x at *
  cases hx with
  | zero =>
      cases hy with
      | zero => rfl
  | positive _ hn hrounds =>
      cases hy with
      | positive _ hn' hrounds' =>
          rw [hrounds.injective hn hn' (by omega) (by omega) hrounds']
  | negative _ hn hrounds =>
      cases hy with
      | negative _ hn' hrounds' =>
          rw [hrounds.injective hn hn' (by omega) (by omega) hrounds']

end Number
end TransformChain
