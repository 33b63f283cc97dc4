import Mathlib.Data.List.TakeWhile
import TransformChain.Text.Word

/-!
# Whole words

The search for a whole word finds the first place where one of the words stands by itself, and
finds nothing only if there is no such place.
-/

namespace TransformChain
namespace Text

variable {words : List (List Char)} {before spelling after text : List Char}

/-!
## Spellings
-/

/-- One of the words in some letter case, with no word character right before or behind it. -/
structure StandsAlone (words : List (List Char)) (before spelling after : List Char) : Prop where
  folded : spelling.map foldLetter ∈ words
  begins : ∀ c ∈ before.getLast?, isWordChar c = false
  ends : startsWordChar after = false

def Capital (words : List (List Char)) : Prop :=
  ∀ word ∈ words, word ≠ [] ∧ ∀ c ∈ word, c.isUpper = true

theorem isWordChar_of_range {c : Char} (hcode : 128 ≤ c.toNat) (i : Nat)
    (hi : i < WordTable.ranges.size) (hlow : WordTable.ranges[i].1 ≤ c.toNat)
    (hhigh : c.toNat ≤ WordTable.ranges[i].2) : isWordChar c = true := by
  rw [isWordChar, if_neg (Nat.not_lt.mpr hcode), Array.any_eq_true]
  refine ⟨i, hi, ?_⟩
  rw [Bool.and_eq_true, decide_eq_true_eq, decide_eq_true_eq]
  exact ⟨hlow, hhigh⟩

theorem isWordChar_longS : isWordChar (Char.ofNat 0x17F) = true :=
  isWordChar_of_range (by decide) 5 (by decide +kernel) (by decide +kernel) (by decide +kernel)

theorem isWordChar_kelvin : isWordChar (Char.ofNat 0x212A) = true :=
  isWordChar_of_range (by decide) 308 (by decide +kernel) (by decide +kernel) (by decide +kernel)

theorem spelled?_eq_some_iff {word cs taken rest : List Char} :
    spelled? word cs = some (taken, rest) ↔ cs = taken ++ rest ∧ taken.map foldLetter = word := by
  induction word generalizing cs taken with
  | nil =>
      rw [spelled?, Option.some.injEq, Prod.mk.injEq, List.map_eq_nil_iff]
      constructor
      · rintro ⟨rfl, rfl⟩
        exact ⟨rfl, rfl⟩
      · rintro ⟨rfl, rfl⟩
        exact ⟨rfl, rfl⟩
  | cons w word ih =>
      cases cs with
      | nil =>
          constructor
          · intro h
            cases h
          · rintro ⟨hnil, hmap⟩
            rw [(List.append_eq_nil_iff.mp hnil.symm).left] at hmap
            cases hmap
      | cons c cs =>
          rw [spelled?]
          constructor
          · intro h
            split at h
            case isFalse => cases h
            case isTrue hc =>
              split at h
              case h_2 => cases h
              case h_1 tail left hspelled =>
                cases h
                rcases ih.mp hspelled with ⟨rfl, hmap⟩
                rw [List.map_cons, beq_iff_eq.mp hc, hmap]
                exact ⟨rfl, rfl⟩
          · rintro ⟨htext, hmap⟩
            cases taken with
            | nil => cases hmap
            | cons first taken =>
                injection htext with hfirst htext
                subst hfirst
                rw [List.map_cons] at hmap
                injection hmap with hfold hmap
                rw [if_pos (beq_iff_eq.mpr hfold), ih.mpr ⟨htext, hmap⟩]

theorem isWordChar_of_isAlpha {c : Char} (h : c.isAlpha = true) : isWordChar c = true := by
  have hcode : c.toNat < 128 := by
    unfold Char.isAlpha at h
    rcases Bool.or_eq_true_iff.mp h with hupper | hlower
    · unfold Char.isUpper at hupper
      rw [decide_eq_true_eq] at hupper
      exact Nat.lt_of_le_of_lt (UInt32.le_iff_toNat_le.mp hupper.right) (by decide)
    · unfold Char.isLower at hlower
      rw [Bool.and_eq_true, decide_eq_true_eq, decide_eq_true_eq] at hlower
      exact Nat.lt_of_le_of_lt (UInt32.le_iff_toNat_le.mp hlower.right) (by decide)
  rw [isWordChar, if_pos hcode, Char.isAlphanum, h]
  rfl

theorem isAlpha_of_isUpper_toUpper {c : Char} (h : c.toUpper.isUpper = true) :
    c.isAlpha = true := by
  unfold Char.isAlpha
  rw [Bool.or_eq_true]
  unfold Char.toUpper at h
  split at h
  case isTrue hlower =>
    right
    unfold Char.isLower
    rw [Bool.and_eq_true, decide_eq_true_eq, decide_eq_true_eq]
    exact hlower
  case isFalse => exact Or.inl h

theorem isWordChar_of_isUpper_fold {c : Char} (h : (foldLetter c).isUpper = true) :
    isWordChar c = true := by
  unfold foldLetter at h
  split at h
  case isTrue hc =>
    have hchar : c = Char.ofNat 0x17F := by
      rw [← beq_iff_eq.mp hc, Char.ofNat_toNat]
    rw [hchar]
    exact isWordChar_longS
  case isFalse =>
    split at h
    case isTrue hc =>
      have hchar : c = Char.ofNat 0x212A := by
        rw [← beq_iff_eq.mp hc, Char.ofNat_toNat]
      rw [hchar]
      exact isWordChar_kelvin
    case isFalse => exact isWordChar_of_isAlpha (isAlpha_of_isUpper_toUpper h)

theorem StandsAlone.takeWhile_eq (hcapital : Capital words)
    (h : StandsAlone words before spelling after) :
    (spelling ++ after).takeWhile isWordChar = spelling := by
  have hword : ∀ c ∈ spelling, isWordChar c = true := by
    intro c hmem
    exact isWordChar_of_isUpper_fold
      ((hcapital _ h.folded).right _ (List.mem_map_of_mem hmem))
  rw [List.takeWhile_append_of_pos hword]
  cases after with
  | nil => exact List.append_nil spelling
  | cons c after =>
      have hc : isWordChar c = false := h.ends
      rw [List.takeWhile_cons_of_neg (by simp [hc]), List.append_nil]

/-!
## The search
-/

structure Leftmost (words : List (List Char)) (before spelling after : List Char) : Prop
    extends StandsAlone words before spelling after where
  first : ∀ before' spelling' after',
    before' ++ (spelling' ++ after') = before ++ (spelling ++ after) →
      StandsAlone words before' spelling' after' →
      before.length < before'.length ∨ (before' = before ∧ spelling' = spelling)

theorem wholeWord?_cases (words : List (List Char)) (text : List Char) :
    (∃ spelling after, wholeWord? words text = some spelling ∧ text = spelling ++ after ∧
      spelling.map foldLetter ∈ words ∧ startsWordChar after = false) ∨
    (wholeWord? words text = none ∧ ∀ spelling after, text = spelling ++ after →
      spelling.map foldLetter ∈ words → startsWordChar after = true) := by
  cases hword : wholeWord? words text with
  | some taken =>
      rcases List.exists_of_findSome?_eq_some hword with ⟨word, hmem, hword⟩
      split at hword
      case h_2 => cases hword
      case h_1 taken rest hspelled =>
        split at hword
        case isTrue => cases hword
        case isFalse hends =>
          cases hword
          rcases spelled?_eq_some_iff.mp hspelled with ⟨htext, rfl⟩
          exact Or.inl ⟨taken, rest, rfl, htext, hmem, Bool.eq_false_iff.mpr hends⟩
  | none =>
      refine Or.inr ⟨rfl, fun spelling after htext hmem => ?_⟩
      have hspelled := spelled?_eq_some_iff.mpr ⟨htext, rfl⟩
      have hnone := List.findSome?_eq_none_iff.mp hword _ hmem
      rw [hspelled] at hnone
      by_contra hends
      simp only [if_neg hends] at hnone
      cases hnone

theorem standsAlone_cases (words : List (List Char)) (before text : List Char) :
    (∃ spelling after,
      (if before.getLast?.any isWordChar then none else wholeWord? words text) = some spelling ∧
      text = spelling ++ after ∧ StandsAlone words before spelling after) ∨
    ((if before.getLast?.any isWordChar then none else wholeWord? words text) = none ∧
      ∀ spelling after, text = spelling ++ after → ¬StandsAlone words before spelling after) := by
  split
  case isTrue hbefore =>
    refine Or.inr ⟨rfl, fun spelling after htext hstands => ?_⟩
    rcases (Option.any_eq_true _ _).mp hbefore with ⟨c, hlast, hc⟩
    rw [hstands.begins c hlast] at hc
    cases hc
  case isFalse hbefore =>
    have hbegins : ∀ c ∈ before.getLast?, isWordChar c = false := by
      intro c hlast
      rw [Bool.eq_false_iff]
      intro hc
      exact hbefore ((Option.any_eq_true _ _).mpr ⟨c, hlast, hc⟩)
    rcases wholeWord?_cases words text with
      ⟨spelling, after, hword, htext, hmem, hends⟩ | ⟨hword, hnone⟩
    · exact Or.inl ⟨spelling, after, hword, htext, hmem, hbegins, hends⟩
    · refine Or.inr ⟨hword, fun spelling after htext hstands => ?_⟩
      have hends := hnone spelling after htext hstands.folded
      rw [hstands.ends] at hends
      cases hends

theorem findWord_cases (hcapital : Capital words) (before text : List Char) :
    (∃ skipped spelling after, text = skipped ++ (spelling ++ after) ∧
      StandsAlone words (before ++ skipped) spelling after ∧
      (∀ skipped' spelling' after', text = skipped' ++ (spelling' ++ after') →
        StandsAlone words (before ++ skipped') spelling' after' →
        skipped.length ≤ skipped'.length) ∧
      findWord words (before.getLast?.any isWordChar) text = some spelling) ∨
    ((∀ skipped spelling after, text = skipped ++ (spelling ++ after) →
        ¬StandsAlone words (before ++ skipped) spelling after) ∧
      findWord words (before.getLast?.any isWordChar) text = none) := by
  induction text generalizing before with
  | nil =>
      refine Or.inr ⟨fun skipped spelling after htext hstands => ?_, rfl⟩
      have hnil := (List.append_eq_nil_iff.mp htext.symm).right
      have hword := hstands.folded
      rw [(List.append_eq_nil_iff.mp hnil).left] at hword
      exact (hcapital _ hword).left rfl
  | cons c text ih =>
      rw [findWord]
      rcases standsAlone_cases words before (c :: text) with
        ⟨spelling, after, hhere, htext, hstands⟩ | ⟨hhere, hnot⟩
      · refine Or.inl ⟨[], spelling, after, htext, ?_, fun _ _ _ _ _ => Nat.zero_le _, ?_⟩
        · rwa [List.append_nil]
        · rw [hhere]
      · rw [hhere]
        have hlast : (before ++ [c]).getLast?.any isWordChar = isWordChar c := by
          rw [List.getLast?_append]
          rfl
        have hstep := ih (before ++ [c])
        rw [hlast] at hstep
        simp only [List.append_assoc, List.singleton_append] at hstep
        -- A word that does not begin here begins behind `c`.
        have hlater : ∀ skipped spelling after, c :: text = skipped ++ (spelling ++ after) →
            StandsAlone words (before ++ skipped) spelling after →
            ∃ rest, skipped = c :: rest ∧ text = rest ++ (spelling ++ after) := by
          intro skipped spelling after htext hstands
          cases skipped with
          | nil =>
              rw [List.append_nil] at hstands
              exact absurd hstands (hnot spelling after htext)
          | cons first rest =>
              injection htext with hfirst htext
              subst hfirst
              exact ⟨rest, rfl, htext⟩
        rcases hstep with ⟨skipped, spelling, after, rfl, hstands, hfirst, hfound⟩ | ⟨hnone, hfound⟩
        · refine Or.inl ⟨c :: skipped, spelling, after, rfl, hstands, ?_, hfound⟩
          intro skipped' spelling' after' htext' hstands'
          rcases hlater _ _ _ htext' hstands' with ⟨rest, rfl, hrest⟩
          exact Nat.succ_le_succ (hfirst _ _ _ hrest hstands')
        · refine Or.inr ⟨fun skipped spelling after htext hstands => ?_, hfound⟩
          rcases hlater _ _ _ htext hstands with ⟨rest, rfl, hrest⟩
          exact hnone _ _ _ hrest hstands

theorem leftmost_or_none (hcapital : Capital words) (text : List Char) :
    (∃ before spelling after, text = before ++ (spelling ++ after) ∧
      Leftmost words before spelling after ∧ findWord words false text = some spelling) ∨
    ((∀ before spelling after, text = before ++ (spelling ++ after) →
        ¬StandsAlone words before spelling after) ∧
      findWord words false text = none) := by
  rcases findWord_cases hcapital [] text with
    ⟨before, spelling, after, rfl, hstands, hfirst, hfound⟩ | ⟨hnone, hfound⟩
  · refine Or.inl ⟨before, spelling, after, rfl, ⟨hstands, ?_⟩, hfound⟩
    intro before' spelling' after' htext hstands'
    rcases Nat.lt_or_eq_of_le (hfirst before' spelling' after' htext.symm hstands') with hlt | heq
    · exact Or.inl hlt
    · rcases List.append_inj htext heq.symm with ⟨rfl, hbehind⟩
      have hspelling' := hstands'.takeWhile_eq hcapital
      rw [hbehind] at hspelling'
      exact Or.inr ⟨rfl, hspelling'.symm.trans (hstands.takeWhile_eq hcapital)⟩
  · exact Or.inr ⟨hnone, hfound⟩

end Text
end TransformChain
