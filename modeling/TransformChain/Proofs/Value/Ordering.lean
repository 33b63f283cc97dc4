import TransformChain.Proofs.Number.Rounding
import TransformChain.Proofs.Template.Yields

/-!
# Order and equality of values

Values that can be compared are less, equal or greater, and the other way round if they are
exchanged.  Equality is tested apart from the order: two integers are the same only if they are, but
they are ordered as the floats they are rounded to.  These are the only values on which order and
equality disagree.
-/

namespace TransformChain
namespace Value

/-!
## Floats
-/

theorem lt_iff_compare {x y : Float} : x < y ↔ x.toModel.compare y.toModel = some .lt := by
  change (decide ((x.toModel.compare y.toModel == some .lt) = true)) = true ↔ _
  rw [decide_eq_true_iff, beq_iff_eq]

theorem beq_iff_compare {x y : Float} :
    (x == y) = true ↔ x.toModel.compare y.toModel = some .eq := by
  change (x.toModel.compare y.toModel == some .eq) = true ↔ _
  rw [beq_iff_eq]

theorem compareFloats_eq (x y : Float) : compareFloats x y = x.toModel.compare y.toModel := by
  have hswap : y.toModel.compare x.toModel = (x.toModel.compare y.toModel).map Ordering.swap :=
    Number.compare_swap x.toModel.unpack y.toModel.unpack
  unfold compareFloats
  simp only [lt_iff_compare, beq_iff_compare, hswap]
  cases x.toModel.compare y.toModel with
  | none => rfl
  | some o => cases o <;> rfl

theorem compareFloats_swap (x y : Float) :
    compareFloats y x = (compareFloats x y).map Ordering.swap := by
  rw [compareFloats_eq, compareFloats_eq]
  exact Number.compare_swap x.toModel.unpack y.toModel.unpack

theorem compareFloats_eq_iff {x y : Float} : compareFloats x y = some .eq ↔ (x == y) = true := by
  rw [compareFloats_eq, beq_iff_compare]

theorem beq_comm (x y : Float) : (x == y) = true ↔ (y == x) = true := by
  rw [← compareFloats_eq_iff, ← compareFloats_eq_iff, compareFloats_swap y x]
  cases compareFloats y x with
  | none => simp
  | some o => cases o <;> simp

/-!
## Values that can be compared
-/

theorem compare?_cases {a b : Value} {o : Ordering} (h : a.compare? b = some o) :
    (∃ s t, a = .str s ∧ b = .str t ∧ o = compare s t) ∨
      ∃ x y, a.number? = some x ∧ b.number? = some y ∧ compareFloats x y = some o := by
  unfold compare? at h
  split at h
  case h_1 s t =>
    cases h
    exact Or.inl ⟨s, t, rfl, rfl, rfl⟩
  case h_2 =>
    split at h
    case h_1 x y hx hy => exact Or.inr ⟨x, y, hx, hy, h⟩
    case h_2 => cases h

theorem compare?_of_numbers {a b : Value} {x y : Float} (hx : a.number? = some x)
    (hy : b.number? = some y) : a.compare? b = compareFloats x y := by
  cases a <;> cases hx <;> cases b <;> cases hy <;> rfl

theorem compare?_swap {a b : Value} {o : Ordering} (h : a.compare? b = some o) :
    b.compare? a = some o.swap := by
  rcases compare?_cases h with ⟨s, t, rfl, rfl, rfl⟩ | ⟨x, y, hx, hy, hcompare⟩
  · change some (compare t s) = _
    rw [Std.OrientedOrd.eq_swap]
  · rw [compare?_of_numbers hy hx, compareFloats_swap, hcompare]
    rfl

/-- Two different integers that are rounded to the same float. -/
def Merged : Value → Value → Prop
  | .int i, .int j => i ≠ j ∧ Number.nearest i = Number.nearest j
  | _, _ => False

theorem compare?_ints (i j : Int64) :
    compare? (.int i) (.int j) =
      some (if Number.nearest i = Number.nearest j then .eq else compare i.toInt j.toInt) := by
  change compareFloats (Number.nearest i) (Number.nearest j) = _
  rw [compareFloats_eq, Number.compare_nearest]

theorem compare?_ints_iff {i j : Int64} {o : Ordering}
    (h : compare? (.int i) (.int j) = some o) :
    o = compare i.toInt j.toInt ↔ ¬Merged (.int i) (.int j) := by
  rw [compare?_ints, Option.some.injEq] at h
  subst h
  by_cases hsame : Number.nearest i = Number.nearest j
  · rw [if_pos hsame]
    constructor
    · rintro heq ⟨hne, -⟩
      exact hne (Int64.toInt_inj.mp (compare_eq_iff_eq.mp heq.symm))
    · intro hmerged
      have heq : i = j := by
        by_contra hne
        exact hmerged ⟨hne, hsame⟩
      rw [heq, compare_eq_iff_eq.mpr rfl]
  · rw [if_neg hsame]
    exact ⟨fun _ hmerged => hsame hmerged.right, fun _ => rfl⟩

theorem looselyEquals_ints (i j : Int64) :
    looselyEquals (.int i) (.int j) = true ↔ i = j :=
  beq_iff_eq

theorem looselyEquals_of_numbers {a b : Value} {x y : Float} (hx : a.number? = some x)
    (hy : b.number? = some y) (hints : ∀ i j, a = .int i → b ≠ .int j) :
    a.looselyEquals b = true ↔ (x == y) = true := by
  cases a with
  | int i =>
      cases b with
      | int j => exact absurd rfl (hints i j rfl)
      | float y' =>
          cases hx
          cases hy
          exact Iff.rfl
      | _ => cases hy
  | float x' =>
      cases b with
      | int j =>
          cases hx
          cases hy
          -- here the integer is compared with the float, and not the float with the integer
          exact beq_comm _ _
      | float y' =>
          cases hx
          cases hy
          exact Iff.rfl
      | _ => cases hy
  | _ => cases hx

theorem not_merged {a b : Value} (hints : ∀ i j, a = .int i → b ≠ .int j) : ¬Merged a b := by
  cases a with
  | int i =>
      cases b with
      | int j => exact absurd rfl (hints i j rfl)
      | _ => exact id
  | _ => exact id

theorem compare?_ints_eq_iff {i j : Int64} {o : Ordering}
    (h : compare? (.int i) (.int j) = some o) :
    (o = .eq ↔ looselyEquals (.int i) (.int j) = true) ↔ ¬Merged (.int i) (.int j) := by
  rw [looselyEquals_ints]
  rw [compare?_ints, Option.some.injEq] at h
  have hexact : compare i.toInt j.toInt = .eq ↔ i = j := compare_eq_iff_eq.trans Int64.toInt_inj
  subst h
  by_cases hsame : Number.nearest i = Number.nearest j
  · simp [Merged, hsame]
  · simp [Merged, hsame, hexact]

/-- What is ordered as equal is equal, and the other way round, unless rounding merges it. -/
theorem compare?_eq_iff {a b : Value} {o : Ordering} (h : a.compare? b = some o) :
    (o = .eq ↔ a.looselyEquals b = true) ↔ ¬Merged a b := by
  by_cases hints : ∃ i j, a = .int i ∧ b = .int j
  · obtain ⟨i, j, rfl, rfl⟩ := hints
    exact compare?_ints_eq_iff h
  · have hints' : ∀ i j, a = .int i → b ≠ .int j := fun i j ha hb => hints ⟨i, j, ha, hb⟩
    refine iff_of_true ?_ (not_merged hints')
    rcases compare?_cases h with ⟨s, t, rfl, rfl, rfl⟩ | ⟨x, y, hx, hy, hcompare⟩
    · change compare s t = .eq ↔ (s == t) = true
      rw [beq_iff_eq, Std.compare_eq_iff_eq]
    · rw [looselyEquals_of_numbers hx hy hints', ← compareFloats_eq_iff, hcompare,
        Option.some.injEq]

theorem Merged.large {a b : Value} (h : Merged a b) :
    ∃ i j, a = .int i ∧ b = .int j ∧ (2 ^ 53 < i.toInt.natAbs ∨ 2 ^ 53 < j.toInt.natAbs) := by
  cases a with
  | int i =>
      cases b with
      | int j =>
          refine ⟨i, j, rfl, rfl, ?_⟩
          by_contra hsmall
          rw [not_or, not_lt, not_lt] at hsmall
          exact h.left (Number.nearest_injective hsmall.left hsmall.right h.right)
      | _ => exact h.elim
  | _ => exact h.elim

/-!
## Texts
-/

def codePoints (s : String) : List Nat :=
  s.toList.map Char.toNat

theorem codePoints_lt_iff {s t : String} : codePoints s < codePoints t ↔ s < t := by
  have hmono : ∀ {s t : String}, s < t → codePoints s < codePoints t := by
    intro s t h
    refine List.map_lt ?_ (String.lt_iff.mp h)
    intro c d hcd
    exact UInt32.lt_iff_toNat_lt.mp (Char.lt_def.mp hcd)
  constructor
  · intro h
    by_contra hnot
    by_cases hgt : t < s
    · exact List.lt_asymm h (hmono hgt)
    · rw [String.le_antisymm (String.not_lt.mp hgt) (String.not_lt.mp hnot)] at h
      exact List.lt_irrefl _ h
  · exact hmono

theorem compare_strings_lt_iff {s t : String} :
    compare s t = .lt ↔ codePoints s < codePoints t :=
  compareOfLessAndEq_eq_lt.trans codePoints_lt_iff.symm

theorem compare_strings_gt_iff {s t : String} :
    compare s t = .gt ↔ codePoints t < codePoints s := by
  rw [← compare_strings_lt_iff, Std.OrientedOrd.eq_swap, Ordering.swap_eq_gt]

/-!
## Operators
-/

open Template Template.Action

structure ComparedAs (scene : Scene) (calls : Calls) (left right : Expr) (before after : State)
    (less same greater atMost : Bool) : Prop where
  lt : Yields (eval scene calls (.binary .lt left right)) before (.bool less) after
  eq : Yields (eval scene calls (.binary .eq left right)) before (.bool same) after
  gt : Yields (eval scene calls (.binary .gt left right)) before (.bool greater) after
  le : Yields (eval scene calls (.binary .le left right)) before (.bool atMost) after

theorem compared_eq_ok {a b : Value} {o : Ordering} (h : a.compare? b = some o)
    (test : Ordering → Bool) : Operation.compared test a b = .ok (.bool (test o)) := by
  unfold Operation.compared
  rw [h]

theorem comparedAs {a b : Value} {o : Ordering} (h : a.compare? b = some o) {scene : Scene}
    {calls : Calls} {left right : Expr} {before between after : State}
    (hleft : Yields (eval scene calls left) before a between)
    (hright : Yields (eval scene calls right) between b after) :
    ComparedAs scene calls left right before after o.isLT (a.looselyEquals b) o.isGT o.isLE where
  lt := yields_operands nofun nofun hleft hright (compared_eq_ok h Ordering.isLT)
  eq := yields_operands nofun nofun hleft hright rfl
  gt := yields_operands nofun nofun hleft hright (compared_eq_ok h Ordering.isGT)
  le := yields_operands nofun nofun hleft hright (compared_eq_ok h Ordering.isLE)

theorem count_operators (o : Ordering) (same : Bool) :
    [o.isLT, same, o.isGT].count true = 1 ↔ (o = .eq ↔ same = true) := by
  cases o <;> cases same <;> decide

theorem isLE_eq_or (o : Ordering) (same : Bool) (h : same = true → o = .eq) :
    o.isLE = (o.isLT || same) ↔ (o = .eq ↔ same = true) := by
  revert h
  cases o <;> cases same <;> decide

theorem eq_of_looselyEquals {a b : Value} {o : Ordering} (h : a.compare? b = some o)
    (hsame : a.looselyEquals b = true) : o = .eq := by
  by_cases hmerged : Merged a b
  · obtain ⟨i, j, rfl, rfl, -⟩ := hmerged.large
    exact absurd ((looselyEquals_ints i j).mp hsame) hmerged.left
  · exact ((compare?_eq_iff h).mpr hmerged).mpr hsame

/-- Values that can be compared can be compared the other way round, with the reverse result, and
texts are in the order of their code points.  The order of values agrees with their equality, that
of integers is their own order, and the operators are those of a linear order, unless rounding
merges the two values, which are then integers beyond `2 ^ 53`. -/
theorem order_agrees_iff {a b : Value} {o : Ordering} (h : a.compare? b = some o) :
    b.compare? a = some o.swap ∧
      (∀ s t, a = .str s → b = .str t →
        (o = .lt ↔ codePoints s < codePoints t) ∧ (o = .eq ↔ s = t) ∧
          (o = .gt ↔ codePoints t < codePoints s)) ∧
      ((o = .eq ↔ a.looselyEquals b = true) ↔ ¬Merged a b) ∧
      (∀ i j, a = .int i → b = .int j → (o = compare i.toInt j.toInt ↔ ¬Merged a b)) ∧
      (∀ {scene calls left right before between after},
        Yields (eval scene calls left) before a between →
          Yields (eval scene calls right) between b after →
            ∃ less same greater atMost,
              ComparedAs scene calls left right before after less same greater atMost ∧
                ([less, same, greater].count true = 1 ↔ ¬Merged a b) ∧
                (atMost = (less || same) ↔ ¬Merged a b)) ∧
      (Merged a b → ∃ i j, a = .int i ∧ b = .int j ∧
        (2 ^ 53 < i.toInt.natAbs ∨ 2 ^ 53 < j.toInt.natAbs)) := by
  have heq := compare?_eq_iff h
  refine ⟨compare?_swap h, ?texts, heq, ?integers, ?operators, Merged.large⟩
  case texts =>
    rintro s t rfl rfl
    cases h
    exact ⟨compare_strings_lt_iff, Std.compare_eq_iff_eq, compare_strings_gt_iff⟩
  case integers =>
    rintro i j rfl rfl
    exact compare?_ints_iff h
  case operators =>
    intro scene calls left right before between after hleft hright
    exact ⟨_, _, _, _, comparedAs h hleft hright, (count_operators o _).trans heq,
      (isLE_eq_or o _ (eq_of_looselyEquals h)).trans heq⟩

theorem order_agrees_of_rounded :
    compare? (.int 9007199254740993) (.float (Number.nearest 9007199254740992)) = some .eq ∧
      looselyEquals (.int 9007199254740993) (.float (Number.nearest 9007199254740992)) = true ∧
      ∃ less same greater atMost,
        ComparedAs Scene.bare Calls.spent (.lit (.int 9007199254740993))
          (.lit (.float (Number.nearest 9007199254740992))) ⟨[], [], 0⟩ ⟨[], [], 0⟩
          less same greater atMost ∧
        [less, same, greater].count true = 1 ∧ atMost = (less || same) :=
  have h : compare? (.int 9007199254740993) (.float (Number.nearest 9007199254740992)) =
      some .eq := by decide +kernel
  have hlit (v : Value) : Yields (eval Scene.bare Calls.spent (.lit v)) ⟨[], [], 0⟩ v
      ⟨[], [], 0⟩ := rfl
  have ⟨_, _, hequal, _, hoperators, _⟩ := order_agrees_iff h
  have ⟨less, same, greater, atMost, hcompared, hone, hle⟩ := hoperators (hlit _) (hlit _)
  ⟨h, (hequal.mpr id).mp rfl, less, same, greater, atMost, hcompared, hone.mpr id, hle.mpr id⟩

/-- Two integers that are not equal and of which none is less than the other. -/
theorem rounded_integers_merge :
    compare? (.int 9007199254740993) (.int 9007199254740992) = some .eq ∧
      looselyEquals (.int 9007199254740993) (.int 9007199254740992) = false := by
  decide +kernel

end Value
end TransformChain
