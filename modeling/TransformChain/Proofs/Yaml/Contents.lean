import TransformChain.Proofs.Keyed.Entries
import TransformChain.Proofs.Yaml.Atoms
import TransformChain.Proofs.Yaml.Documents
import TransformChain.Yaml.Decode

/-!
# Contents of documents

A block document, read without knowing what it should hold, gives the texts, numbers, lists and
mappings that it writes.
-/

namespace TransformChain
namespace Yaml

namespace Block

mutual

def argument : Block → Argument
  | .number n => .int (Int64.ofInt (Int.ofNat n))
  | .text s => .str s
  | .list items => .list (itemArguments items)
  | .record fields => .mapping (fieldArguments fields)

def fieldArguments : List (String × Block) → List (String × Argument)
  | [] => []
  | (key, block) :: rest => (key, block.argument) :: fieldArguments rest

def itemArguments : List Block → List Argument
  | [] => []
  | item :: rest => item.argument :: itemArguments rest

end

theorem keys_fieldArguments (fields : List (String × Block)) :
    Keyed.keys (fieldArguments fields) = Keyed.keys fields := by
  induction fields with
  | nil => rfl
  | cons field fields ih =>
      rcases field with ⟨key, block⟩
      exact congrArg (List.cons key) ih

theorem itemArguments_map {α : Type} (block : α → Block) (items : List α) :
    itemArguments (items.map block) = items.map fun item => (block item).argument := by
  induction items with
  | nil => rfl
  | cons item items ih => exact congrArg (List.cons _) ih

end Block

/-!
## Scalars
-/

theorem eq_of_ofPlain_eq_text {s t : String} (h : Atom.ofPlain s = .text t) : t = s := by
  rw [Atom.ofPlain] at h
  split at h
  · cases h
  · split at h
    · cases h
    · split at h
      · cases h
      · split at h
        · exact (Atom.text.inj h).symm
        · split at h
          · cases h
          · exact (Atom.text.inj h).symm

/-- A text that stands plain is taken for a text. -/
theorem scalarArgument_plain {s : String} (h : readsAsText s = true) :
    scalarArgument none true s = some (.str s) := by
  have hatom : Atom.ofPlain s = .text s := by
    rw [readsAsText] at h
    cases hread : Atom.ofPlain s with
    | text t => rw [eq_of_ofPlain_eq_text hread]
    | null => simp [hread] at h
    | bool b => simp [hread] at h
    | int n => simp [hread] at h
    | float x => simp [hread] at h
  rw [scalarArgument, if_pos rfl, if_pos rfl, hatom]
  rfl

theorem readsAsText_of_standsPlain {s : String} (h : Scanner.standsPlain s = true) :
    readsAsText s = true := by
  have hform : scalarForm s = .plain := eq_of_beq h
  simp only [scalarForm] at hform
  split at hform
  · split at hform <;> cases hform
  · split at hform
    case isTrue htext => exact (Bool.and_eq_true_iff.mp htext).left
    case isFalse => split at hform <;> cases hform

theorem argument_text (s : String) : argument (Block.text s).node = some (.str s) := by
  rw [Block.node, argument]
  cases hplain : Scanner.standsPlain s with
  | false => rfl
  | true => exact scalarArgument_plain (readsAsText_of_standsPlain hplain)

theorem argument_number {n : Nat} (h : Int.ofNat n ≤ Decimal.greatestInt) :
    argument (Block.number n).node = some (Block.number n).argument := by
  have hlow : Decimal.smallestInt ≤ Int.ofNat n :=
    Int.le_trans (by decide : Decimal.smallestInt ≤ 0) (Int.natCast_nonneg n)
  have hfits : (decide (Decimal.smallestInt ≤ Int.ofNat n) &&
      decide (Int.ofNat n ≤ Decimal.greatestInt)) = true := by
    rw [decide_eq_true hlow, decide_eq_true h]
    rfl
  rw [Block.node, argument, scalarArgument, if_pos rfl, if_pos rfl, ofPlain_digitText h, Block.argument]
  simp only [argumentOfAtom, Decimal.toInt64?, hfits, if_true]

/-!
## Trees
-/

mutual

theorem argument_node (block : Block) (h : block.IsTree) :
    argument block.node = some block.argument := by
  cases block with
  | number n => exact argument_number h
  | text s =>
      rw [Block.argument]
      exact argument_text s
  | list items =>
      rw [Block.node, argument, argumentItems_nodes items h.right, Block.argument]
      rfl
  | record fields =>
      have hkeys : (Keyed.keys (Block.fieldArguments fields)).Nodup := by
        rw [Block.keys_fieldArguments]
        exact h.right.left
      rw [Block.node, argument, argumentEntries_nodes fields h.right.right, Block.argument]
      simp only [isLocalTag, Bool.false_eq_true, if_false, Option.map_some,
        Keyed.ofPairs_of_nodup hkeys]

theorem argumentEntries_nodes (fields : List (String × Block)) (h : Block.AreFields fields) :
    argumentEntries (Block.fieldNodes fields) = some (Block.fieldArguments fields) := by
  cases fields with
  | nil => rfl
  | cons field fields =>
      rcases field with ⟨key, block⟩
      have hkey : argumentKey (.scalar none true key) = some key := by
        simp only [argumentKey, scalarArgument_plain h.left.named]
      rw [Block.fieldNodes, argumentEntries, Block.fieldArguments]
      simp only [hkey, argument_node block h.right.left, argumentEntries_nodes fields h.right.right]

theorem argumentItems_nodes (items : List Block) (h : Block.AreItems items) :
    argumentItems (Block.itemNodes items) = some (Block.itemArguments items) := by
  cases items with
  | nil => rfl
  | cons item items =>
      rw [Block.itemNodes, argumentItems, Block.itemArguments]
      simp only [argument_node item h.right.left, argumentItems_nodes items h.right.right]

end

/-- A document reads back as what it writes. -/
theorem decode_document {fields : List (String × Block)} (h : (Block.record fields).IsTree)
    (hdepth : (Block.record fields).depth ≤ nestingLimit) :
    decode argument (Block.document fields) = some (.mapping (Block.fieldArguments fields)) := by
  rw [decode, read_document h hdepth]
  simp only
  rw [argument_node _ h, Block.argument]

end Yaml
end TransformChain
