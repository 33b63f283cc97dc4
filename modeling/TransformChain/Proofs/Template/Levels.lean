import TransformChain.Proofs.Template.Refusal

/-!
# Levels of the grammar

A level of the grammar reads what the next tighter level reads, possibly with signs in front of it,
and goes on with operations of its own.  So an expression that a tight level reads is read by every
looser level, as long as no operation follows that would take it for an operand.
-/

namespace TransformChain
namespace Template
namespace Grammar

open Text TransformChain.Parser

variable {inner : Parser Expr} {cs mid rest : List Char} {e final : Expr}

/-!
## Signs
-/

def signedWithin (sign : Parser α) (wrap : Expr → Expr) (base : Parser Expr) : Nat → Parser Expr
  | 0 => fun _ => .spent
  | budget + 1 =>
      orElse
        (do
          let _ ← sign
          let operand ← signedWithin sign wrap base budget
          return wrap operand)
        base

def signed (sign : Parser α) (wrap : Expr → Expr) (base : Parser Expr) : Parser Expr :=
  fun cs => signedWithin sign wrap base (cs.length + 1) cs

theorem negation_eq (inner : Parser Expr) :
    negation inner = signed (keyword "not") .not (comparison inner) := by
  have hwithin : ∀ budget, negationWithin inner budget
      = signedWithin (keyword "not") .not (comparison inner) budget := by
    intro budget
    induction budget with
    | zero => rfl
    | succ budget ih =>
        unfold negationWithin signedWithin
        rw [ih]
  funext cs
  unfold negation signed
  rw [hwithin]

theorem unary_eq (inner : Parser Expr) :
    unary inner = signed (afterGap (char '-')) .neg (afterGap (filtered inner)) := by
  have hwithin : ∀ budget, unaryWithin inner budget
      = signedWithin (afterGap (char '-')) .neg (afterGap (filtered inner)) budget := by
    intro budget
    induction budget with
    | zero => rfl
    | succ budget ih =>
        unfold unaryWithin signedWithin
        rw [ih]
        rfl
  funext cs
  unfold unary signed
  rw [hwithin]

section Signs

variable {sign : Parser α} {wrap : Expr → Expr} {base : Parser Expr}

/-- A larger budget changes nothing unless the smaller one was spent. -/
theorem signedWithin_le {budget more : Nat} (hle : budget ≤ more)
    (h : signedWithin sign wrap base budget cs ≠ .spent) :
    signedWithin sign wrap base more cs = signedWithin sign wrap base budget cs := by
  induction budget generalizing cs more with
  | zero => exact absurd rfl h
  | succ budget ih =>
      obtain ⟨more, rfl⟩ : ∃ n, more = n + 1 := ⟨more - 1, by omega⟩
      apply orElse_congr
      cases hsign : sign cs with
      | rejected place => rw [bind_rejected hsign, bind_rejected hsign]
      | spent => rw [bind_spent hsign, bind_spent hsign]
      | accepted a left =>
          rw [bind_accepted hsign, bind_accepted hsign]
          apply bind_eq_of_eq
          apply ih (Nat.le_of_succ_le_succ hle)
          intro hspent
          apply h
          apply orElse_spent
          rw [bind_accepted hsign]
          exact bind_spent hspent

def Consumes (p : Parser α) : Prop :=
  ∀ {cs left : List Char} {a : α}, p cs = .accepted a left → left.length < cs.length

theorem reads_signed_base (hsign : Refuses sign cs) (hbase : Reads base cs e rest) :
    Reads (signed sign wrap base) cs e rest := by
  intro ds hds
  exact (hsign ds hds).bind.reads_orElse (hbase ds hds)

theorem refuses_signed (hsign : Refuses sign cs) (hbase : Refuses base cs) :
    Refuses (signed sign wrap base) cs :=
  fun ds hds => (hsign ds hds).bind.orElse (hbase ds hds)

theorem reads_signed_sign {a : α} (hconsumes : Consumes sign) (hsign : Reads sign cs a mid)
    (he : Reads (signed sign wrap base) mid e rest) :
    Reads (signed sign wrap base) cs (wrap e) rest := by
  intro ds hds
  rcases hsign ds hds with ⟨next, hnext, hsame⟩
  rcases he next hsame with ⟨left, hleft, hrest⟩
  have hlength := hconsumes hnext
  have hwithin : signedWithin sign wrap base ds.length next = .accepted e left := by
    unfold signed at hleft
    rw [signedWithin_le hlength (by simp [hleft]), hleft]
  refine ⟨left, ?_, hrest⟩
  unfold signed signedWithin orElse
  rw [bind_accepted hnext, bind_accepted hwithin]
  rfl

end Signs

theorem consumes_keyword (name : String) : Consumes (keyword name) := by
  intro cs left found h
  unfold keyword at h
  rw [spaced_eq] at h
  cases hword : word (dropGap cs) with
  | rejected place => simp [verify, hword] at h
  | spent => simp [verify, hword] at h
  | accepted w rest =>
      obtain ⟨hname, hchars, _⟩ := word_accepted hword
      have hleft : left = dropGap rest := by
        unfold verify at h
        rw [hword] at h
        by_cases hw : w = name
        · simp only [hw, beq_self_eq_true, if_true, Parsed.accepted.injEq] at h
          exact h.right.symm
        · simp [hw] at h
      have hlength := ahead_le_length cs
      have hrest := ahead_le_length rest
      have hpos := length_pos_of_isIdentifier hname
      unfold ahead at hlength hrest
      rw [hchars, List.length_append] at hlength
      rw [hleft]
      omega

theorem consumes_char (c : Char) : Consumes (afterGap (char c)) := by
  intro cs left found h
  have hlength := ahead_le_length cs
  unfold ahead at hlength
  rw [char_accepted h, List.length_cons] at hlength
  exact hlength

/-!
## Chains of operations
-/

/-- An expression is continued by steps, which make `e` into `final`. -/
def Folds (step : Parser α) (apply : Expr → α → Expr) (cs : List Char) (e final : Expr)
    (rest : List Char) : Prop :=
  ∃ steps, ReadsMany step cs steps rest ∧ final = steps.foldl apply e

section Chains

variable {part : Parser α} {apply : Expr → α → Expr}

theorem Folds.done (h : Refuses part cs) : Folds part apply cs e e cs :=
  ⟨[], .nil h, rfl⟩

theorem Folds.step {a : α} (hstep : Reads part cs a mid) (hshorter : ahead mid < ahead cs)
    (h : Folds part apply mid (apply e a) final rest) : Folds part apply cs e final rest := by
  rcases h with ⟨steps, hsteps, hfinal⟩
  exact ⟨a :: steps, .cons hstep hshorter hsteps, hfinal⟩

theorem Folds.reads {first : Parser Expr} (hfirst : Reads first cs e mid)
    (h : Folds part apply mid e final rest) :
    Reads (do
      let first ← first
      let steps ← many part
      return steps.foldl apply first) cs final rest := by
  rcases h with ⟨steps, hsteps, rfl⟩
  exact hfirst.bind hsteps.many.map

end Chains

def operation (operator : Parser BinaryOp) (operand : Parser Expr) : Parser (BinaryOp × Expr) := do
  let op ← operator
  let right ← operand
  return (op, right)

def applyOperation (left : Expr) (part : BinaryOp × Expr) : Expr :=
  .binary part.1 left part.2

def applyFilter (value : Expr) (call : String × List Expr) : Expr :=
  .filter value call.1 call.2

/-!
## The levels
-/

def levelAt (inner : Parser Expr) : Nat → Parser Expr
  | 0 => conditional inner
  | 1 => disjunction inner
  | 2 => conjunction inner
  | 3 => negation inner
  | 4 => comparison inner
  | 5 => concatenation inner
  | 6 => sum inner
  | 7 => product inner
  | 8 => unary inner
  | 9 => afterGap (filtered inner)
  | _ => afterGap (postfixed inner)

/-- The text goes on with operations of the level, which make `e` into `final`.  At the levels of
conditionals, signs and comparisons no further operation of the level can follow. -/
def More (inner : Parser Expr) : Nat → List Char → Expr → Expr → List Char → Prop
  | 1 => Folds (operation (operatorAt 1) (levelAt inner 2)) applyOperation
  | 2 => Folds (operation (operatorAt 2) (levelAt inner 3)) applyOperation
  | 5 => Folds (operation (operatorAt 5) (levelAt inner 6)) applyOperation
  | 6 => Folds (operation (operatorAt 6) (levelAt inner 7)) applyOperation
  | 7 => Folds (operation (operatorAt 7) (levelAt inner 8)) applyOperation
  | 9 => Folds (filterCall inner) applyFilter
  | 10 => Folds (suffix inner) Suffix.apply
  | l => fun cs e final rest => Stops l cs ∧ final = e ∧ rest = cs

theorem refuses_operation {l : Nat} {operand : Parser Expr} (h : Stops l cs) :
    Refuses (operation (operatorAt l) operand) cs :=
  (refuses_operatorAt h).bind

theorem more_done {l : Nat} (h : Stops l cs) (hl : l ≤ 10) : More inner l cs e e cs := by
  unfold More
  split
  · exact Folds.done (refuses_operation h)
  · exact Folds.done (refuses_operation h)
  · exact Folds.done (refuses_operation h)
  · exact Folds.done (refuses_operation h)
  · exact Folds.done (refuses_operation h)
  · exact Folds.done (refuses_filterCall h (Nat.le_refl _))
  · exact Folds.done (refuses_suffix h (Nat.le_refl _))
  · exact ⟨h, rfl, rfl⟩

/-!
## Beginnings
-/

theorem refuses_levelAt {l : Nat} (hl : l ≤ 10)
    (hprimary : RefusesHere (primary inner) (dropGap cs))
    (hminus : l ≤ 8 → Refuses (afterGap (char '-')) cs)
    (hnot : l ≤ 3 → Refuses (keyword "not") cs) : Refuses (levelAt inner l) cs := by
  refine Nat.decreasingInduction' (P := fun k => Refuses (levelAt inner k) cs) ?_ hl
    (refuses_afterGap hprimary.bind)
  intro k hk hlk ih
  match k with
  | 3 =>
    change Refuses (negation inner) cs
    rw [negation_eq]
    exact refuses_signed (hnot hlk) ih
  | 8 =>
    change Refuses (unary inner) cs
    rw [unary_eq]
    exact refuses_signed (hminus hlk) ih
  | 0 | 1 | 2 | 4 | 5 | 6 | 7 | 9 => exact Refuses.bind ih

theorem refuses_minus_of_start {c : Char} {left : List Char} (h : dropGap cs = c :: left)
    (hc : c ≠ '-') : Refuses (afterGap (char '-')) cs := by
  apply refuses_afterGap
  rw [h]
  exact refuses_char_of_ne hc

def Unopened (cs : List Char) : Prop :=
  ∃ c left, dropGap cs = c :: left ∧ opensOperand c = false ∧ c ≠ '-'

theorem Unopened.refuses_word (h : Unopened cs) : RefusesHere word (dropGap cs) := by
  rcases h with ⟨c, left, hcs, hopens, _⟩
  rw [hcs]
  simp only [opensOperand, Bool.or_eq_false_iff] at hopens
  exact Grammar.refuses_word hopens.left.left.left.left.left.left

theorem Unopened.refuses {l : Nat} (h : Unopened cs) (hl : l ≤ 10) :
    Refuses (levelAt inner l) cs := by
  have hword := h.refuses_word
  rcases h with ⟨c, left, hcs, hopens, hminus⟩
  refine refuses_levelAt hl ?_ (fun _ => refuses_minus_of_start hcs hminus)
    (fun _ => refuses_spaced hword.verify)
  rw [hcs]
  exact refuses_primary hopens

theorem refuses_minus_of_reads (h : Reads (levelAt inner 9) cs e mid) :
    Refuses (afterGap (char '-')) cs := by
  refine refuses_afterGap (refuses_char fun left hcs => ?_)
  have hprimary : RefusesHere (primary inner) (dropGap cs) := by
    rw [hcs]
    exact refuses_primary rfl
  exact (refuses_levelAt (by decide) hprimary (fun h => absurd h (by decide))
    (fun h => absurd h (by decide))).not_reads h

theorem refuses_not_of_reads (h : Reads (levelAt inner 4) cs e mid) :
    Refuses (keyword "not") cs := by
  rcases word_or_refuses cs with ⟨name, left, hword⟩ | ⟨_, hrefuses⟩
  · apply refuses_keyword_of_word hword
    rintro rfl
    have hprimary : RefusesHere (primary inner) (dropGap cs) :=
      refuses_primary_of_word hword (by decide) (by decide)
    have hminus : Refuses (afterGap (char '-')) cs := by
      obtain ⟨_, hcs, _⟩ := word_accepted hword
      exact refuses_minus_of_start hcs (by decide)
    exact (refuses_levelAt (by decide) hprimary (fun _ => hminus)
      (fun h => absurd h (by decide))).not_reads h
  · exact hrefuses "not"

/-!
## From level to level
-/

theorem reads_looser {l : Nat} (hl : l < 10) (h : Reads (levelAt inner (l + 1)) cs e mid)
    (hmore : More inner l mid e final rest) : Reads (levelAt inner l) cs final rest := by
  match l with
  | 0 =>
    obtain ⟨hstops, rfl, rfl⟩ := hmore
    exact h.bind ((refuses_conditionPart hstops).optional.bind (reads_pure _))
  | 3 =>
    obtain ⟨hstops, rfl, rfl⟩ := hmore
    change Reads (negation inner) cs final rest
    rw [negation_eq]
    exact reads_signed_base (refuses_not_of_reads h) h
  | 4 =>
    obtain ⟨hstops, rfl, rfl⟩ := hmore
    exact h.bind ((refuses_comparand hstops (Nat.le_refl _)).optional.bind (reads_pure _))
  | 8 =>
    obtain ⟨hstops, rfl, rfl⟩ := hmore
    change Reads (unary inner) cs final rest
    rw [unary_eq]
    exact reads_signed_base (refuses_minus_of_reads h) h
  | 1 | 2 | 5 | 6 | 7 | 9 => exact Folds.reads h hmore

/-- Lexemes that a level reads as an expression, and then goes on, in texts of at most `n`
characters. -/
def ReadsAt (inner : Parser Expr) (n l : Nat) (ls : List Lexeme) (e : Expr) : Prop :=
  ∀ ⦃cs mid rest : List Char⦄ ⦃final : Expr⦄, ahead cs ≤ n → Spells ls cs mid →
    Stops (l + 1) mid → More inner l mid e final rest → Reads (levelAt inner l) cs final rest

theorem ReadsAt.alone {n l : Nat} {ls : List Lexeme} (h : ReadsAt inner n l ls e) (hl : l ≤ 10)
    (hcs : ahead cs ≤ n) (hspells : Spells ls cs mid) (hstops : Stops l mid) :
    Reads (levelAt inner l) cs e mid :=
  h hcs hspells (hstops.mono (Nat.le_succ l)) (more_done hstops hl)

theorem ReadsAt.looser {n k l : Nat} {ls : List Lexeme} (h : ReadsAt inner n l ls e) (hl : l ≤ 10)
    (hk : k ≤ l) : ReadsAt inner n k ls e := by
  refine Nat.decreasingInduction' (P := fun k => ReadsAt inner n k ls e) ?_ hk h
  intro k hkl _ ih cs mid rest final hcs hspells hstops hmore
  exact reads_looser (Nat.lt_of_lt_of_le hkl hl) (ih.alone (by omega) hcs hspells hstops) hmore

end Grammar
end Template
end TransformChain
