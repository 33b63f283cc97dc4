import TransformChain.Proofs.Parser.Reading

/-!
# What accepting parsers were made of

Read backwards, a composed parser that accepts has parts that accept: what they took and what they
left can be told from the whole.
-/

namespace TransformChain
namespace Parser

open Text

section Accepting

variable {cs rest : List Char}

/-!
## One after the other
-/

theorem bind_eq_accepted_iff {p : Parser α} {f : α → Parser β} {b : β} :
    (p >>= f) cs = .accepted b rest ↔
      ∃ a mid, p cs = .accepted a mid ∧ f a mid = .accepted b rest := by
  change andThen p f cs = _ ↔ _
  unfold andThen
  cases p cs with
  | accepted a mid => simp
  | rejected place => simp
  | spent => simp

theorem pure_eq_accepted_iff {a b : α} :
    (pure a : Parser α) cs = .accepted b rest ↔ a = b ∧ cs = rest := by
  change Parsed.accepted a cs = _ ↔ _
  rw [Parsed.accepted.injEq]

theorem exists_of_spaced {p : Parser α} {a : α} (h : spaced p cs = .accepted a rest) :
    ∃ left, p (dropGap cs) = .accepted a left ∧ rest = dropGap left := by
  rw [spaced_eq] at h
  cases hp : p (dropGap cs) with
  | accepted b left =>
      rw [hp] at h
      cases h
      exact ⟨left, rfl, rfl⟩
  | rejected place =>
      rw [hp] at h
      cases h
  | spent =>
      rw [hp] at h
      cases h

theorem eq_cons_of_char {c d : Char} (h : char c cs = .accepted d rest) : cs = c :: rest := by
  have hcs := char_accepted h
  subst hcs
  by_cases hd : d = c
  · rw [hd]
  · have hrefuses : RefusesHere (char c) (d :: rest) :=
      refuses_char fun more heq => hd (List.cons.inj heq).left
    rcases hrefuses with ⟨place, hplace⟩
    rw [hplace] at h
    cases h

theorem eq_of_notAhead {p : Parser α} {u : Unit} (h : notAhead p cs = .accepted u rest) :
    rest = cs := by
  unfold notAhead at h
  split at h
  · cases h
  · cases h
    rfl
  · cases h

theorem accepted_of_verify {p : Parser α} {test : α → Bool} {a : α}
    (h : verify p test cs = .accepted a rest) : p cs = .accepted a rest := by
  unfold verify at h
  split at h
  case h_1 hp =>
    split at h
    · cases h
      exact hp
    · cases h
  case h_2 => exact h

theorem accepted_of_whole {p : Parser α} {a : α} (h : whole p cs = .accepted a rest) :
    p cs = .accepted a [] := by
  unfold whole at h
  split at h
  case h_1 hp =>
    cases h
    exact hp
  case h_2 => cases h
  case h_3 hnil hother => exact absurd h (hother a rest)

/-!
## Choice
-/

theorem orElse_accepted {p q : Parser α} {a : α} (h : orElse p q cs = .accepted a rest) :
    p cs = .accepted a rest ∨ q cs = .accepted a rest := by
  unfold orElse at h
  split at h
  · exact Or.inr h
  · exact Or.inl h

theorem exists_of_oneOf {alternatives : List (Parser α)} {a : α}
    (h : oneOf alternatives cs = .accepted a rest) :
    ∃ p ∈ alternatives, p cs = .accepted a rest := by
  induction alternatives with
  | nil => cases h
  | cons p others ih =>
      cases others with
      | nil => exact ⟨p, List.mem_singleton.mpr rfl, h⟩
      | cons q others =>
          rcases orElse_accepted h with hp | hothers
          · exact ⟨p, List.mem_cons_self, hp⟩
          · rcases ih hothers with ⟨found, hmem, hfound⟩
            exact ⟨found, List.mem_cons_of_mem p hmem, hfound⟩

theorem optional_eq_accepted {p : Parser α} {found : Option α}
    (h : Parser.optional p cs = .accepted found rest) :
    (found = none ∧ rest = cs) ∨ ∃ a, found = some a ∧ p cs = .accepted a rest := by
  unfold Parser.optional at h
  split at h
  case h_1 a left hp =>
    cases h
    exact Or.inr ⟨a, rfl, hp⟩
  case h_2 =>
    cases h
    exact Or.inl ⟨rfl, rfl⟩
  case h_3 => cases h

/-!
## Repetition
-/

theorem runsMany_of_manyWithin {p : Parser α} {results : List α} {budget : Nat}
    (h : manyWithin p budget cs = .accepted results rest) : RunsMany p cs results rest := by
  induction budget generalizing cs results with
  | zero => cases h
  | succ budget ih =>
      unfold manyWithin at h
      split at h
      case h_1 first mid hfirst =>
        split at h
        case h_1 others left hothers =>
          cases h
          exact .cons hfirst (ih hothers)
        case h_2 => cases h
        case h_3 => cases h
      case h_2 place hrefused =>
        cases h
        exact .nil ⟨place, hrefused⟩
      case h_3 => cases h

theorem runsMany_of_many {p : Parser α} {results : List α}
    (h : many p cs = .accepted results rest) : RunsMany p cs results rest :=
  runsMany_of_manyWithin h

theorem RunsMany.eq_of_nil {p : Parser α} (h : RunsMany p cs [] rest) : rest = cs := by
  cases h
  rfl

theorem exists_of_separated {separator : Parser β} {item : Parser α} {first : α} {others : List α}
    (h : separated separator item cs = .accepted (first :: others) rest) :
    ∃ mid, item cs = .accepted first mid ∧
      RunsMany (separator >>= fun _ => item) mid others rest := by
  unfold separated at h
  split at h
  case h_1 found mid hfound =>
    split at h
    case h_1 more left hmore =>
      cases h
      exact ⟨mid, hfound, runsMany_of_many hmore⟩
    case h_2 => cases h
    case h_3 => cases h
  case h_2 => cases h
  case h_3 => cases h

end Accepting
end Parser
end TransformChain
