import TransformChain.Proofs.Yaml.Blocks
import TransformChain.Yaml.Node

/-!
# Documents read back

The tree of a block document is built again from its tokens.
-/

namespace TransformChain
namespace Yaml

/-!
## Nodes of blocks
-/

namespace Block

mutual

def node : Block → Node
  | .number n => .scalar none true (Decimal.digitText n)
  | .text s => .scalar none (Scanner.standsPlain s) s
  | .list items => .sequence none (itemNodes items)
  | .record fields => .mapping none (fieldNodes fields)

def fieldNodes : List (String × Block) → List (Node × Node)
  | [] => []
  | (key, block) :: rest => (.scalar none true key, block.node) :: fieldNodes rest

def itemNodes : List Block → List Node
  | [] => []
  | item :: rest => item.node :: itemNodes rest

end

mutual

/-- How many lists and records stand inside one another. -/
def depth : Block → Nat
  | .number _ => 0
  | .text _ => 0
  | .list items => itemDepth items + 1
  | .record fields => fieldDepth fields + 1

def fieldDepth : List (String × Block) → Nat
  | [] => 0
  | (_, block) :: rest => max block.depth (fieldDepth rest)

def itemDepth : List Block → Nat
  | [] => 0
  | item :: rest => max item.depth (itemDepth rest)

end

theorem length_le_fieldTokens (fields : List (String × Block)) :
    fields.length ≤ (fieldTokens fields).length := by
  induction fields with
  | nil => exact Nat.zero_le _
  | cons field fields ih =>
      rcases field with ⟨key, block⟩
      simp only [fieldTokens, List.length_cons, List.length_append]
      omega

theorem length_le_itemTokens (items : List Block) : items.length ≤ (itemTokens items).length := by
  induction items with
  | nil => exact Nat.zero_le _
  | cons item items ih =>
      simp only [itemTokens, List.length_cons, List.length_append]
      omega

end Block

/-!
## Readers of nodes
-/

/-- A record is read wherever a block may stand. -/
def ReadsRecord (b : Nat) (fields : List (String × Block)) : Prop :=
  ∀ (position : Position) (marks : Marks) (rest : List Token), position ≠ .flow →
    readNode b position marks ((Block.record fields).tokens ++ rest) =
      some ((Block.record fields).node, marks, rest)

/-- Behind a key a block is read, up to a token that is no dash. -/
def ReadsValue (b : Nat) (block : Block) : Prop :=
  ∀ (marks : Marks) (rest : List Token), rest.head? ≠ some .blockEntry →
    readNode b .entry marks (block.tokens ++ rest) = some (block.node, marks, rest)

def ReadsFields (b : Nat) (fields : List (String × Block)) : Prop :=
  ∀ (budget : Nat) (marks : Marks) (rest : List Token), fields.length < budget →
    blockEntries (readNode b .entry) budget marks (Block.fieldTokens fields ++ .blockEnd :: rest) =
      some (Block.fieldNodes fields, marks, rest)

def ReadsItems (b : Nat) (items : List Block) : Prop :=
  ∀ (budget : Nat) (marks : Marks) (rest : List Token), items.length < budget →
    rest.head? ≠ some .blockEntry →
    indentlessItems (readNode b .block) budget marks (Block.itemTokens items ++ rest) =
      some (Block.itemNodes items, marks, rest)

section Readers

variable {b : Nat} {key : String} {block : Block} {fields : List (String × Block)}
  {items : List Block}

theorem readNode_scalar (b : Nat) (position : Position) (marks : Marks) (plain : Bool)
    (text : String) (rest : List Token) :
    readNode b position marks (.scalar plain text :: rest) =
      some (.scalar none plain text, marks, rest) := by
  cases b <;> rfl

theorem readsRecord_of_fields (h : ReadsFields b fields) : ReadsRecord (b + 1) fields := by
  intro position marks rest hposition
  have hentries := h ((Block.fieldTokens fields ++ .blockEnd :: rest).length + 2) marks rest (by
    have := Block.length_le_fieldTokens fields
    simp only [List.length_append]
    omega)
  have hread : readNode (b + 1) position marks
      (.blockMappingStart :: (Block.fieldTokens fields ++ .blockEnd :: rest)) =
        marked none (Node.mapping none) (blockEntries (readNode b .entry)
          ((Block.fieldTokens fields ++ .blockEnd :: rest).length + 2) marks
          (Block.fieldTokens fields ++ .blockEnd :: rest)) := by
    cases position with
    | flow => exact absurd rfl hposition
    | block => rfl
    | entry => rfl
  rw [Block.tokens, List.cons_append, List.append_assoc, List.singleton_append, hread, hentries,
    Block.node]
  rfl

theorem readsRecord_of_depth (h : ∀ c, Block.fieldDepth fields ≤ c → ReadsFields c fields)
    (hdepth : (Block.record fields).depth ≤ b) : ReadsRecord b fields := by
  rw [Block.depth] at hdepth
  cases b with
  | zero => cases hdepth
  | succ b => exact readsRecord_of_fields (h b (Nat.le_of_succ_le_succ hdepth))

theorem readsFields_nil : ReadsFields b [] := by
  intro budget marks rest hbudget
  cases budget with
  | zero => cases hbudget
  | succ budget => rfl

theorem startsBlockEntry_tokens (h : block.IsTree) (rest : List Token) :
    startsBlockEntry (block.tokens ++ rest) = true := by
  cases block with
  | number count => rw [Block.tokens]; rfl
  | text s => rw [Block.tokens]; rfl
  | list items =>
      cases items with
      | nil => exact absurd rfl h.left
      | cons item items => rw [Block.tokens, Block.itemTokens]; rfl
  | record fields => rw [Block.tokens]; rfl

theorem head?_fieldTokens (fields : List (String × Block)) (rest : List Token) :
    (Block.fieldTokens fields ++ .blockEnd :: rest).head? ≠ some .blockEntry := by
  cases fields with
  | nil => exact fun h => nomatch h
  | cons field fields => exact fun h => nomatch h

theorem readsFields_cons (hblock : block.IsTree) (hvalue : ReadsValue b block)
    (hfields : ReadsFields b fields) : ReadsFields b ((key, block) :: fields) := by
  intro budget marks rest hbudget
  cases budget with
  | zero => cases hbudget
  | succ budget =>
      have hvalueRead := hvalue marks (Block.fieldTokens fields ++ .blockEnd :: rest)
        (head?_fieldTokens fields rest)
      have hothers := hfields budget marks rest (Nat.lt_of_succ_lt_succ hbudget)
      have hstarts := startsBlockEntry_tokens hblock (Block.fieldTokens fields ++ .blockEnd :: rest)
      have hkeyStarts (tokens : List Token) :
          startsBlockEntry (.scalar true key :: tokens) = true := rfl
      rw [Block.fieldTokens, Block.fieldNodes]
      simp only [List.cons_append, List.append_assoc, blockEntries, orEmpty, hkeyStarts, if_true,
        readNode_scalar, Option.map_some, blockValue, hstarts, hvalueRead, hothers]

theorem readsItems_nil : ReadsItems b [] := by
  intro budget marks rest hbudget hrest
  cases budget with
  | zero => cases hbudget
  | succ budget =>
      rw [Block.itemTokens, List.nil_append, Block.itemNodes]
      simp only [indentlessItems]
      split
      case h_1 => exact absurd rfl hrest
      case h_2 => rfl

theorem readsItems_cons (hrecord : ReadsRecord b fields) (hitems : ReadsItems b items) :
    ReadsItems b (.record fields :: items) := by
  intro budget marks rest hbudget hrest
  cases budget with
  | zero => cases hbudget
  | succ budget =>
      have hfirst := hrecord .block marks (Block.itemTokens items ++ rest) (by decide)
      have hothers := hitems budget marks rest (Nat.lt_of_succ_lt_succ hbudget) hrest
      have hstarts : startsIndentlessItem
          ((Block.record fields).tokens ++ (Block.itemTokens items ++ rest)) = true := by
        rw [Block.tokens]
        rfl
      rw [Block.itemTokens, Block.itemNodes]
      simp only [List.cons_append, List.append_assoc, indentlessItems, orEmpty, hstarts, if_true,
        hfirst, hothers]

theorem readsValue_list (hne : items ≠ []) (hitems : ReadsItems b items) :
    ReadsValue (b + 1) (.list items) := by
  intro marks rest hrest
  have hread := hitems ((Block.itemTokens items ++ rest).length + 1) marks rest (by
    have := Block.length_le_itemTokens items
    simp only [List.length_append]
    omega) hrest
  have hlist : readNode (b + 1) .entry marks (Block.itemTokens items ++ rest) =
      marked none (Node.sequence none) (indentlessItems (readNode b .block)
        ((Block.itemTokens items ++ rest).length + 1) marks (Block.itemTokens items ++ rest)) := by
    cases items with
    | nil => exact absurd rfl hne
    | cons item items => rfl
  rw [Block.tokens, hlist, hread, Block.node]
  rfl

end Readers

mutual

theorem readsValue (b : Nat) (block : Block) (h : block.IsTree) (hdepth : block.depth ≤ b) :
    ReadsValue b block := by
  cases block with
  | number count => exact fun marks rest _ => readNode_scalar b .entry marks true _ rest
  | text s => exact fun marks rest _ => readNode_scalar b .entry marks _ s rest
  | list items =>
      rw [Block.depth] at hdepth
      cases b with
      | zero => cases hdepth
      | succ b =>
          exact readsValue_list h.left (readsItems b items h.right (Nat.le_of_succ_le_succ hdepth))
  | record fields =>
      have hrecord := readsRecord_of_depth (fun c => readsFields c fields h.right.right) hdepth
      exact fun marks rest _ => hrecord .entry marks rest (by decide)

theorem readsFields (b : Nat) (fields : List (String × Block)) (h : Block.AreFields fields)
    (hdepth : Block.fieldDepth fields ≤ b) : ReadsFields b fields := by
  cases fields with
  | nil => exact readsFields_nil
  | cons field fields =>
      rcases field with ⟨key, block⟩
      rw [Block.fieldDepth, Nat.max_le] at hdepth
      exact readsFields_cons h.right.left (readsValue b block h.right.left hdepth.left)
        (readsFields b fields h.right.right hdepth.right)

theorem readsItems (b : Nat) (items : List Block) (h : Block.AreItems items)
    (hdepth : Block.itemDepth items ≤ b) : ReadsItems b items := by
  cases items with
  | nil => exact readsItems_nil
  | cons item items =>
      rw [Block.itemDepth, Nat.max_le] at hdepth
      have hitems := readsItems b items h.right.right hdepth.right
      cases item with
      | number count => exact h.left.elim
      | text s => exact h.left.elim
      | list inner => exact h.left.elim
      | record fields =>
          have hfields := fun c => readsFields c fields h.right.left.right.right
          exact readsItems_cons (readsRecord_of_depth hfields hdepth.left) hitems

end

/-!
## Documents
-/

/-- A document reads back as its tree, which must not be nested too deep. -/
theorem read_document {fields : List (String × Block)} (h : (Block.record fields).IsTree)
    (hdepth : (Block.record fields).depth ≤ nestingLimit) :
    read (Block.document fields) = some (some (Block.record fields).node) := by
  have hrecord := readsRecord_of_depth (fun c => readsFields c fields h.right.right) hdepth
  have hroot := hrecord .block Marks.initial [] (by decide)
  rw [List.append_nil] at hroot
  have hread : readRoot Marks.initial (Block.record fields).tokens =
      some ((Block.record fields).node, []) := by
    rw [readRoot, hroot]
  rw [read, scan_document h]
  simp only
  rw [Block.tokens] at hread ⊢
  simp only [ofTokens, readDirectives, Bool.false_eq_true, if_false, hread, List.all_nil, if_true]

end Yaml
end TransformChain
