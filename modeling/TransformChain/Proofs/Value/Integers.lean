import Mathlib.Algebra.Order.Ring.Int
import TransformChain.Proofs.Template.Yields

/-!
# Integer arithmetic

Remainders and negations of 64-bit integers are exact or fail.  Sums, differences and products
never fail: those that 64 bits cannot hold come out wrong by a multiple of `2 ^ 64`.
-/

namespace TransformChain
namespace Template

open Template.Action

def Fits (n : Int) : Prop :=
  -2 ^ 63 ≤ n ∧ n < 2 ^ 63

theorem fits_toInt (i : Int64) : Fits i.toInt :=
  ⟨i.le_toInt, i.toInt_lt⟩

def IsExact : BinaryOp → Int → Int → Int → Prop
  | .add, a, b, r => r = a + b
  | .sub, a, b, r => r = a - b
  | .mul, a, b, r => r = a * b
  | .mod, a, b, r => 0 ≤ r ∧ r < |b| ∧ b ∣ a - r
  | _, _, _, _ => False

/-!
## Sums, differences and products
-/

theorem toInt_bmod_iff {r : Int64} {exact : Int} (h : r.toInt = exact.bmod (2 ^ 64)) :
    (r.toInt = exact ↔ Fits exact) ∧ 2 ^ 64 ∣ exact - r.toInt := by
  constructor
  · constructor
    · intro heq
      rw [← heq]
      exact fits_toInt r
    · rintro ⟨hlow, hhigh⟩
      rw [h]
      exact Int.bmod_eq_of_le_mul_two (by omega) (by omega)
  · rw [h]
    exact Int.dvd_self_sub_bmod

theorem intArithmetic_wraps {op : BinaryOp} (hop : op = .add ∨ op = .sub ∨ op = .mul)
    (a b : Int64) :
    ∃ (exact : Int) (r : Int64), IsExact op a.toInt b.toInt exact ∧
      Operation.binary op (.int a) (.int b) = .ok (.int r) ∧ r.toInt = exact.bmod (2 ^ 64) := by
  rcases hop with rfl | rfl | rfl
  · exact ⟨_, a + b, rfl, rfl, Int64.toInt_add a b⟩
  · exact ⟨_, a - b, rfl, rfl, Int64.toInt_sub a b⟩
  · exact ⟨_, a * b, rfl, rfl, Int64.toInt_mul a b⟩

/-!
## Remainders
-/

theorem isExact_mod_iff {a b r : Int} (hb : b ≠ 0) : IsExact .mod a b r ↔ r = a % b := by
  constructor
  · rintro ⟨hlow, hhigh, hdvd⟩
    calc r = r % |b| := (Int.emod_eq_of_lt hlow hhigh).symm
      _ = r % b := Int.emod_abs r b
      _ = a % b := (Int.emod_eq_emod_iff_emod_sub_eq_zero.mpr (Int.emod_eq_zero_of_dvd hdvd)).symm
  · rintro rfl
    exact ⟨Int.emod_nonneg a hb, Int.emod_lt_abs a hb, Int.dvd_self_sub_emod⟩

theorem remainder_fits (a : Int) {b : Int64} (hb : b.toInt ≠ 0) : Fits (a % b.toInt) := by
  have hlow := Int.emod_nonneg a hb
  have hhigh := Int.emod_lt_abs a hb
  rw [Int.abs_eq_natAbs] at hhigh
  have hbLow := b.le_toInt
  have hbHigh := b.toInt_lt
  exact ⟨by omega, by omega⟩

theorem toInt_ne_zero {b : Int64} (hb : b ≠ 0) : b.toInt ≠ 0 :=
  fun h => hb (Int64.toInt_inj.mp h)

theorem intRemainder_of_exact {a b : Int64} (hb : b ≠ 0)
    (hquotient : ¬(a = Int64.minValue ∧ b = -1)) :
    ∃ r, Operation.binary .mod (.int a) (.int b) = .ok (.int r) ∧ r.toInt = a.toInt % b.toInt := by
  have hfits := remainder_fits a.toInt (toInt_ne_zero hb)
  refine ⟨Int64.ofInt (a.toInt % b.toInt), ?_, Int64.toInt_ofInt_of_le hfits.left hfits.right⟩
  simp [Operation.binary, Operation.arithmetic, Operation.intArithmetic, Number.intRemainder?, hb,
    hquotient]

theorem intRemainder_of_fault {a b : Int64} (h : b = 0 ∨ (a = Int64.minValue ∧ b = -1)) :
    Operation.binary .mod (.int a) (.int b) =
      .error (if b = 0 then .moduloByZero else .moduloOverflow a b) := by
  rcases h with rfl | ⟨rfl, rfl⟩ <;> rfl

/-!
## Negations
-/

theorem fits_neg_iff (a : Int64) : Fits (-a.toInt) ↔ a ≠ Int64.minValue := by
  have hlow := a.le_toInt
  have hhigh := a.toInt_lt
  rw [Ne, ← Int64.toInt_inj, Int64.toInt_minValue, Fits]
  omega

theorem negate_of_fits {a : Int64} (h : Fits (-a.toInt)) :
    Operation.negate (.int a) = .ok (.int (-a)) ∧ (-a).toInt = -a.toInt := by
  constructor
  · simp [Operation.negate, Number.negated?, (fits_neg_iff a).mp h]
  · exact ((toInt_bmod_iff (Int64.toInt_neg a)).left).mpr h

theorem negate_of_not_fits {a : Int64} (h : ¬Fits (-a.toInt)) :
    Operation.negate (.int a) = .error (.negationOverflow a) := by
  have ha : a = Int64.minValue := not_not.mp ((fits_neg_iff a).not.mp h)
  simp [Operation.negate, Number.negated?, ha]

/-!
## Expressions
-/

section Expressions

variable {scene : Scene} {calls : Calls} {before between after : State} {left right : Expr}

theorem eval_neg {a : Value} (h : Yields (eval scene calls left) before a after) :
    eval scene calls (.neg left) before = operate scene (Operation.negate a) after := by
  simp only [eval]
  exact h.bind_eq

theorem operate_error {fault : EvaluationFault} {result : Operated Value}
    (h : result = .error fault) (state : State) :
    operate scene result state =
      (.failed (.templateEvaluation scene.template.name fault), state) := by
  rw [h]
  rfl

/-- Remainders and negations are exact, or fail where there is no result or 64 bits cannot hold the
quotient or the result.  Sums, differences and products always give an integer, which is the exact
one only if that fits, and else differs from it by a multiple of `2 ^ 64`. -/
theorem integer_operators_exact_iff {a b : Int64}
    (hleft : Yields (eval scene calls left) before (.int a) between)
    (hright : Yields (eval scene calls right) between (.int b) after) :
    (∀ op, op = .add ∨ op = .sub ∨ op = .mul →
      ∃ exact r, IsExact op a.toInt b.toInt exact ∧
        Yields (eval scene calls (.binary op left right)) before (.int r) after ∧
        (r.toInt = exact ↔ Fits exact) ∧ 2 ^ 64 ∣ exact - r.toInt) ∧
      (¬(b = 0 ∨ (a = Int64.minValue ∧ b = -1)) →
        ∃ r, Yields (eval scene calls (.binary .mod left right)) before (.int r) after ∧
          ∀ exact, IsExact .mod a.toInt b.toInt exact ↔ exact = r.toInt) ∧
      (b = 0 ∨ (a = Int64.minValue ∧ b = -1) →
        eval scene calls (.binary .mod left right) before =
          (.failed (.templateEvaluation scene.template.name
            (if b = 0 then .moduloByZero else .moduloOverflow a b)), after)) ∧
      (Fits (-a.toInt) →
        ∃ r, Yields (eval scene calls (.neg left)) before (.int r) between ∧
          r.toInt = -a.toInt) ∧
      (¬Fits (-a.toInt) →
        eval scene calls (.neg left) before =
          (.failed (.templateEvaluation scene.template.name (.negationOverflow a)), between)) := by
  refine ⟨?wrapping, ?remainder, ?noRemainder, ?negation, ?noNegation⟩
  case wrapping =>
    intro op hop
    obtain ⟨exact, r, hexact, hresult, hwraps⟩ := intArithmetic_wraps hop a b
    have hand : op ≠ .and := by
      rintro rfl
      simp at hop
    have hor : op ≠ .or := by
      rintro rfl
      simp at hop
    exact ⟨exact, r, hexact, yields_operands hand hor hleft hright hresult,
      toInt_bmod_iff hwraps⟩
  case remainder =>
    intro h
    rw [not_or] at h
    obtain ⟨r, hresult, hr⟩ := intRemainder_of_exact h.left h.right
    refine ⟨r, yields_operands nofun nofun hleft hright hresult, fun exact => ?_⟩
    rw [isExact_mod_iff (toInt_ne_zero h.left), hr]
  case noRemainder =>
    intro h
    have heval := eval_operands (show BinaryOp.mod ≠ .and from nofun) nofun hleft hright
    exact heval.trans (operate_error (intRemainder_of_fault h) after)
  case negation =>
    intro h
    obtain ⟨hresult, hexact⟩ := negate_of_fits h
    exact ⟨-a, (eval_neg hleft).trans (yields_operate.mpr ⟨hresult, rfl⟩), hexact⟩
  case noNegation =>
    intro h
    exact (eval_neg hleft).trans (operate_error (negate_of_not_fits h) between)

theorem remainder_of_negative :
    ∃ r, Yields (eval Scene.bare Calls.spent (.binary .mod (.lit (.int (-7))) (.lit (.int 2))))
        ⟨[], [], 0⟩ (.int r) ⟨[], [], 0⟩ ∧ r.toInt = 1 :=
  have hlit (i : Int64) :
      Yields (eval Scene.bare Calls.spent (.lit (.int i))) ⟨[], [], 0⟩ (.int i) ⟨[], [], 0⟩ := rfl
  have ⟨_, hremainder, _⟩ := integer_operators_exact_iff (hlit (-7)) (hlit 2)
  have ⟨r, hyields, hexact⟩ := hremainder (by decide)
  ⟨r, hyields, ((hexact 1).mp ⟨by decide, by decide, by decide⟩).symm⟩

end Expressions

def overflowing : Template :=
  ⟨"t", "", [.output (.binary .add (.lit (.int 9223372036854775807)) (.lit (.int 1)))], []⟩

/-- The sum is written as the least integer, which is not the exact one. -/
theorem overflow_is_written :
    (render overflowing ⟨"T", "T", none, [], []⟩).toOption =
        some ⟨"-9223372036854775808", none⟩ ∧
      IsExact .add 9223372036854775807 1 9223372036854775808 :=
  ⟨by decide +kernel, rfl⟩

end Template
end TransformChain
