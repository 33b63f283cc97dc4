import Mathlib.Data.List.Nodup
import Mathlib.Data.List.Perm.Subperm
import TransformChain.Proofs.Chain.Reachable
import TransformChain.Proofs.Text.Identifiers

/-!
# Step names

The names of the steps of a reachable chain are unquoted identifiers that differ even where the
case of ASCII letters is ignored.  A generated name is the first of the numbered forms of its base
that no step has; that there is one is a matter of counting, since the forms differ pairwise and
only as many can be taken as there are steps.
-/

namespace TransformChain
namespace Chain

def IsFree (chain : Chain) (name : String) : Prop :=
  ∀ taken ∈ chain.stepNames, Text.lowerAscii taken ≠ Text.lowerAscii name

theorem hasStepNamed_eq_true_iff {chain : Chain} {name : String} :
    chain.hasStepNamed name = true ↔ ¬chain.IsFree name := by
  simp [hasStepNamed, IsFree]

theorem hasStepNamed_eq_false_iff {chain : Chain} {name : String} :
    chain.hasStepNamed name = false ↔ chain.IsFree name := by
  rw [← Bool.not_eq_true, hasStepNamed_eq_true_iff, not_not]

theorem length_stepNames (chain : Chain) : chain.stepNames.length = chain.depth := by
  induction chain with
  | root dataset => rfl
  | step parent name s ih => simp [stepNames, depth, ih]

theorem map_name_lineage (chain : Chain) : chain.lineage.map name = chain.stepNames := by
  induction chain with
  | root dataset => rfl
  | step parent stepName s ih => simp [lineage, stepNames, ih, name]

/-!
## Numbered forms

The forms of a base are the base itself and then the base with the numbers from two on.
-/

def numberedForm (base : String) : Nat → String
  | 0 => base
  | k + 1 => numbered base (k + 2)

theorem lowerAscii_numbered (base : String) (n : Nat) :
    Text.lowerAscii (numbered base n) =
      Text.lowerAscii base ++ ("_" ++ Decimal.digitText n) := by
  unfold numbered
  rw [Text.lowerAscii_append, Text.lowerAscii_append, Text.lowerAscii_digitText,
    String.append_assoc]
  rfl

theorem numberedForm_injective {base : String} {j k : Nat}
    (h : Text.lowerAscii (numberedForm base j) = Text.lowerAscii (numberedForm base k)) :
    j = k := by
  have hne : ∀ n, Text.lowerAscii base ≠ Text.lowerAscii (numbered base n) := by
    intro n hbase
    rw [lowerAscii_numbered] at hbase
    have hlength := congrArg String.length hbase
    simp at hlength
  cases j with
  | zero =>
      cases k with
      | zero => rfl
      | succ k => exact absurd h (hne (k + 2))
  | succ j =>
      cases k with
      | zero => exact absurd h.symm (hne (j + 2))
      | succ k =>
          unfold numberedForm at h
          rw [lowerAscii_numbered, lowerAscii_numbered] at h
          have hdigits : Decimal.digitText (j + 2) = Decimal.digitText (k + 2) := by
            simpa using h
          have heq := Decimal.digitText_injective hdigits
          omega

theorem isIdentifier_numbered {base : String} (h : Text.isIdentifier base = true) (n : Nat) :
    Text.isIdentifier (numbered base n) = true := by
  unfold numbered
  rw [String.append_assoc]
  apply Text.isIdentifier_append h
  intro c hc
  rw [String.toList_append, List.mem_append] at hc
  rcases hc with hscore | hdigit
  · rw [List.mem_singleton.mp hscore]
    rfl
  · unfold Decimal.digitText at hdigit
    rw [String.toList_ofList] at hdigit
    have hc := Nat.isDigit_of_mem_toDigits (by decide) (by decide) hdigit
    simp [Text.isIdentifierChar, Char.isAlphanum, hc]

theorem isIdentifier_numberedForm {base : String} (h : Text.isIdentifier base = true) (k : Nat) :
    Text.isIdentifier (numberedForm base k) = true := by
  cases k with
  | zero => exact h
  | succ k => exact isIdentifier_numbered h (k + 2)

/-!
## The first free form
-/

/-- The form that the search for a free one should give. -/
def FirstFree (chain : Chain) (base : String) (k : Nat) : Prop :=
  chain.IsFree (numberedForm base k) ∧ ∀ j < k, ¬chain.IsFree (numberedForm base j)

theorem exists_isFree (chain : Chain) (base : String) :
    ∃ k ≤ chain.depth, chain.IsFree (numberedForm base k) := by
  by_contra hnone
  have htaken : ∀ k ≤ chain.depth, ∃ taken ∈ chain.stepNames,
      Text.lowerAscii taken = Text.lowerAscii (numberedForm base k) := by
    intro k hk
    by_contra hfree
    exact hnone ⟨k, hk, fun taken hmem heq => hfree ⟨taken, hmem, heq⟩⟩
  let forms := (List.range (chain.depth + 1)).map
    (fun k => Text.lowerAscii (numberedForm base k))
  have hnodup : forms.Nodup :=
    List.Nodup.map_on (fun j _ k _ h => numberedForm_injective h) List.nodup_range
  have hsubset : forms ⊆ chain.stepNames.map Text.lowerAscii := by
    intro form hform
    rcases List.mem_map.mp hform with ⟨k, hk, rfl⟩
    rcases htaken k (by simpa [Nat.lt_succ_iff] using hk) with ⟨taken, hmem, heq⟩
    exact List.mem_map.mpr ⟨taken, hmem, heq⟩
  have hle := (hnodup.subperm hsubset).length_le
  simp only [forms, List.length_map, List.length_range, length_stepNames] at hle
  exact absurd hle (Nat.not_succ_le_self chain.depth)

/-- The search from the form after `n` on, given the forms before it are taken and one of the next
`budget` forms is free. -/
theorem freeNumbered_firstFree {chain : Chain} {base : String} (budget : Nat) :
    ∀ n, (∀ j ≤ n, ¬chain.IsFree (numberedForm base j)) →
      (∃ k, n < k ∧ k ≤ n + budget + 1 ∧ chain.IsFree (numberedForm base k)) →
      ∃ k ≤ n + budget + 1, freeNumbered chain base budget (n + 2) = numberedForm base k ∧
        FirstFree chain base k := by
  induction budget with
  | zero =>
      intro n htaken hfree
      rcases hfree with ⟨k, hlow, hhigh, hk⟩
      have hkn : k = n + 1 := by omega
      subst hkn
      exact ⟨n + 1, hhigh, rfl, hk, fun j hj => htaken j (by omega)⟩
  | succ budget ih =>
      intro n htaken hfree
      unfold freeNumbered
      cases hnext : chain.hasStepNamed (numbered base (n + 2)) with
      | false =>
          have hk : chain.IsFree (numberedForm base (n + 1)) :=
            hasStepNamed_eq_false_iff.mp hnext
          exact ⟨n + 1, by omega, rfl, hk, fun j hj => htaken j (by omega)⟩
      | true =>
          have hnot : ¬chain.IsFree (numberedForm base (n + 1)) :=
            hasStepNamed_eq_true_iff.mp hnext
          have htaken' : ∀ j ≤ n + 1, ¬chain.IsFree (numberedForm base j) := by
            intro j hj
            by_cases hlast : j = n + 1
            · rw [hlast]
              exact hnot
            · exact htaken j (by omega)
          rcases hfree with ⟨k, hlow, hhigh, hk⟩
          have hkne : k ≠ n + 1 := fun h => hnot (h ▸ hk)
          rcases ih (n + 1) htaken' ⟨k, by omega, by omega, hk⟩ with ⟨m, hm, heq, hfirst⟩
          exact ⟨m, by omega, by simpa using heq, hfirst⟩

theorem freeName_firstFree (chain : Chain) (base : String) :
    ∃ k ≤ chain.depth, chain.freeName base = numberedForm base k ∧ FirstFree chain base k := by
  unfold freeName
  cases hbase : chain.hasStepNamed base with
  | false =>
      exact ⟨0, Nat.zero_le _, rfl, hasStepNamed_eq_false_iff.mp hbase,
        fun j hj => absurd hj (Nat.not_lt_zero j)⟩
  | true =>
      have htaken : ∀ j ≤ 0, ¬chain.IsFree (numberedForm base j) := by
        intro j hj
        rw [Nat.le_zero.mp hj]
        exact hasStepNamed_eq_true_iff.mp hbase
      rcases exists_isFree chain base with ⟨k, hk, hfree⟩
      have hpos : 0 < k := by
        by_contra hzero
        exact htaken k (by omega) hfree
      rcases freeNumbered_firstFree chain.depth 0 htaken ⟨k, hpos, by omega, hfree⟩ with
        ⟨m, -, heq, hfirst⟩
      have hle : m ≤ k := by
        by_contra hlt
        exact hfirst.right k (by omega) hfree
      exact ⟨m, by omega, heq, hfirst⟩

/-!
## The next name
-/

theorem nextName_none (chain : Chain) (namePrefix transform : String) :
    ∃ k ≤ chain.depth,
      chain.nextName namePrefix transform none =
        .ok (numberedForm (generatedBase namePrefix (chain.depth + 1) transform) k) ∧
      FirstFree chain (generatedBase namePrefix (chain.depth + 1) transform) k := by
  rcases freeName_firstFree chain (generatedBase namePrefix (chain.depth + 1) transform) with
    ⟨k, hk, heq, hfirst⟩
  exact ⟨k, hk, congrArg Except.ok heq, hfirst⟩

theorem nextName_some (chain : Chain) (namePrefix transform requested : String) :
    (Text.isIdentifier requested = false ∧
      chain.nextName namePrefix transform (some requested) = .error (.invalidAlias requested)) ∨
    (Text.isIdentifier requested = true ∧ ¬chain.IsFree requested ∧
      chain.nextName namePrefix transform (some requested) = .error (.aliasConflict requested)) ∨
    (Text.isIdentifier requested = true ∧ chain.IsFree requested ∧
      chain.nextName namePrefix transform (some requested) = .ok requested) := by
  cases hidentifier : Text.isIdentifier requested with
  | false => exact Or.inl ⟨rfl, by simp [nextName, hidentifier]⟩
  | true =>
      cases htaken : chain.hasStepNamed requested with
      | true =>
          exact Or.inr (Or.inl ⟨rfl, hasStepNamed_eq_true_iff.mp htaken,
            by simp [nextName, hidentifier, htaken]⟩)
      | false =>
          exact Or.inr (Or.inr ⟨rfl, hasStepNamed_eq_false_iff.mp htaken,
            by simp [nextName, hidentifier, htaken]⟩)

theorem nextName_ok {chain : Chain} {namePrefix transform name : String}
    {requested : Option String}
    (h : chain.nextName namePrefix transform requested = .ok name) :
    Text.isIdentifier name = true ∧ chain.IsFree name := by
  cases requested with
  | none =>
      rcases nextName_none chain namePrefix transform with ⟨k, -, heq, hfirst⟩
      rw [heq] at h
      cases h
      exact ⟨isIdentifier_numberedForm (Text.isIdentifier_cleanse _) k, hfirst.left⟩
  | some requested =>
      rcases nextName_some chain namePrefix transform requested with
        ⟨-, heq⟩ | ⟨-, -, heq⟩ | ⟨hidentifier, hfree, heq⟩
      · rw [heq] at h
        cases h
      · rw [heq] at h
        cases h
      · rw [heq] at h
        cases h
        exact ⟨hidentifier, hfree⟩

/-!
## Names along a chain
-/

structure WellNamed (chain : Chain) : Prop where
  identifiers : ∀ name ∈ chain.stepNames, Text.isIdentifier name = true
  distinct : chain.stepNames.Pairwise (fun a b => Text.lowerAscii a ≠ Text.lowerAscii b)

theorem WellNamed.root (dataset : Dataset) : WellNamed (.root dataset) :=
  ⟨fun _ h => absurd h List.not_mem_nil, List.Pairwise.nil⟩

theorem WellNamed.step {parent : Chain} {name : String} (h : WellNamed parent)
    (hidentifier : Text.isIdentifier name = true) (hfree : parent.IsFree name) (s : Step) :
    WellNamed (.step parent name s) := by
  constructor
  · intro other hother
    rcases List.mem_append.mp hother with hparent | hlast
    · exact h.identifiers other hparent
    · rw [List.mem_singleton.mp hlast]
      exact hidentifier
  · apply List.pairwise_append.mpr
    refine ⟨h.distinct, List.pairwise_singleton _ _, ?_⟩
    intro taken htaken last hlast
    rw [List.mem_singleton.mp hlast]
    exact hfree taken htaken

theorem Reachable.wellNamed {chain : Chain} (h : Reachable chain) : WellNamed chain := by
  induction h with
  | root dataset => exact WellNamed.root dataset
  | extend _ hextend ih =>
      rcases extend_eq_ok_iff.mp hextend with ⟨e⟩
      rcases nextName_ok e.name_eq with ⟨hidentifier, hfree⟩
      rw [e.next_eq]
      exact ih.step hidentifier hfree _

/-- The names of a reachable chain, and how its next step gets its name: a generated name is the
first of the numbered forms of its base that no step has, a requested one is taken exactly if it
is an identifier that no step has, and an extension gives its step just that name or fails with
the refusal. -/
theorem Reachable.names_and_next_name {chain : Chain} (h : Reachable chain) :
    (∀ name ∈ chain.stepNames, Text.isIdentifier name = true) ∧
    chain.stepNames.Pairwise (fun a b => Text.lowerAscii a ≠ Text.lowerAscii b) ∧
    chain.lineage.map Chain.name = chain.stepNames ∧
    chain.depth = chain.lineage.length ∧
    (∀ namePrefix transform, ∃ k ≤ chain.depth,
      chain.nextName namePrefix transform none =
        .ok (numberedForm (generatedBase namePrefix (chain.depth + 1) transform) k) ∧
      FirstFree chain (generatedBase namePrefix (chain.depth + 1) transform) k) ∧
    (∀ namePrefix transform requested,
      (chain.nextName namePrefix transform (some requested) = .ok requested ↔
        Text.isIdentifier requested = true ∧ chain.IsFree requested) ∧
      (chain.nextName namePrefix transform (some requested) = .error (.invalidAlias requested) ↔
        Text.isIdentifier requested = false) ∧
      (chain.nextName namePrefix transform (some requested) = .error (.aliasConflict requested) ↔
        Text.isIdentifier requested = true ∧ ¬chain.IsFree requested)) ∧
    (∀ workshop transformName args options before next after,
      chain.extend workshop transformName args options before = (.ok next, after) →
      ∃ transform, ReachesNaming workshop chain transformName args before transform after ∧
        chain.nextName workshop.namePrefix transform.name options.name = .ok next.name ∧
        next.stepNames = chain.stepNames ++ [next.name]) ∧
    (∀ workshop transformName args options before after transform error,
      ReachesNaming workshop chain transformName args before transform after →
      chain.nextName workshop.namePrefix transform.name options.name = .error error →
      chain.extend workshop transformName args options before = (.error error, after)) := by
  refine ⟨h.wellNamed.identifiers, h.wellNamed.distinct, map_name_lineage chain, ?_,
    nextName_none chain, ?_, ?_, ?_⟩
  · rw [← length_stepNames, ← map_name_lineage, List.length_map]
  · intro namePrefix transform requested
    rcases nextName_some chain namePrefix transform requested with
      ⟨hidentifier, heq⟩ | ⟨hidentifier, hfree, heq⟩ | ⟨hidentifier, hfree, heq⟩
    · simp [heq, hidentifier]
    · simp [heq, hidentifier, hfree]
    · simp [heq, hidentifier, hfree]
  · intro workshop transformName args options before next after hextend
    rcases extend_eq_ok_iff.mp hextend with ⟨e⟩
    refine ⟨e.transform, e.reachesNaming, ?_, ?_⟩
    · rw [e.name_eq, e.name_next]
    · rw [e.name_next]
      exact congrArg stepNames e.next_eq
  · intro workshop transformName args options before after transform error hreaches hname
    exact extend_of_nextName_error hreaches hname

/-- A name that was taken beforehand makes the search go on to the next form. -/
theorem names_of_copiedTwice :
    Reachable copiedTwice ∧ copiedTwice.stepNames = ["step_2_copy", "STEP_2_COPY_2"] ∧
    copiedTwice.stepNames.Pairwise (fun a b => Text.lowerAscii a ≠ Text.lowerAscii b) ∧
    ∃ k ≤ 2, copiedTwice.nextName "1 \u20ac" "copy" none =
      .ok (numberedForm (generatedBase "1 \u20ac" 3 "copy") k) ∧
      FirstFree copiedTwice (generatedBase "1 \u20ac" 3 "copy") k :=
  have names := reachable_copiedTwice.names_and_next_name
  ⟨reachable_copiedTwice, rfl, names.right.left, names.right.right.right.right.left "1 \u20ac" "copy"⟩

end Chain
end TransformChain
