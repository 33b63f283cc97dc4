import TransformChain.Proofs.Template.Rules

/-!
# Descending through the grammar

A rule that is called stands in front of fewer characters than its caller, or of no more and has a
lower rank.  So the calls come to an end, a rule calls itself again only behind a character, and the
calls nest at most as many times for each character as there are ranks.
-/

namespace TransformChain
namespace Template
namespace Grammar

open TransformChain.Parser

/-!
## Calls
-/

structure Call where
  rule : Rule
  text : List Char
deriving DecidableEq

namespace Call

def Below (d c : Call) : Prop :=
  d.text <:+ c.text ∧ (d.text.length < c.text.length ∨ d.rule.rank < c.rule.rank)

/-- How deep calls can nest below the call. -/
def weight (c : Call) : Nat :=
  Rule.ranks * c.text.length + c.rule.rank

theorem weight_lt (c : Call) : c.weight < Rule.ranks * (c.text.length + 1) := by
  have hrank := c.rule.rank_lt
  unfold weight
  rw [Nat.mul_succ]
  omega

variable {b c d : Call}

theorem Below.weight_lt (h : d.Below c) : d.weight < c.weight := by
  rcases h with ⟨hsuffix, hshorter | hrank⟩
  · have hle : Rule.ranks * (d.text.length + 1) ≤ Rule.ranks * c.text.length :=
      Nat.mul_le_mul_left Rule.ranks hshorter
    exact Nat.lt_of_lt_of_le d.weight_lt (Nat.le_trans hle (Nat.le_add_right _ _))
  · have hle := Nat.mul_le_mul_left Rule.ranks hsuffix.length_le
    unfold weight
    omega

theorem Below.trans (hbc : b.Below c) (hcd : c.Below d) : b.Below d := by
  refine ⟨hbc.left.trans hcd.left, ?_⟩
  have hbc_le := hbc.left.length_le
  have hcd_le := hcd.left.length_le
  rcases hbc with ⟨-, hshorter | hrank⟩
  · exact Or.inl (by omega)
  · rcases hcd with ⟨-, hshorter | hrank'⟩
    · exact Or.inl (by omega)
    · exact Or.inr (Nat.lt_trans hrank hrank')

theorem induction {motive : Call → Prop} (step : ∀ c, (∀ d, d.Below c → motive d) → motive c) :
    ∀ c, motive c :=
  fun c => (measure weight).wf.induction c fun c ih => step c fun d hd => ih d hd.weight_lt

def outcome (calls : Callees) (c : Call) : Parsed c.rule.Result :=
  calls c.rule c.text

end Call

/-- What a rule does at a call depends on the calls below. -/
theorem body_depends {calls calls' : Callees} {c : Call}
    (h : ∀ d : Call, d.Below c →
      d.outcome calls = d.outcome calls' ∧ (d.outcome calls).GetsOn d.text) :
    c.outcome (body calls) = c.outcome (body calls') ∧
      (c.outcome (body calls)).GetsOn c.text := by
  refine body_alike (closedBehind_suffix c.text) (fun q hq ds hds => ?_) (fun q ds hds => ?_)
    c.text (List.suffix_refl c.text)
  · exact h ⟨q, ds⟩ ⟨hds, Or.inr hq⟩
  · rcases hds with ⟨es, hes, hds, hshorter⟩
    exact h ⟨q, ds⟩ ⟨hds.trans hes, Or.inl (Nat.lt_of_lt_of_le hshorter hes.length_le)⟩

/-!
## The grammar without a budget
-/

/-- A rule that calls for nested expressions where it begins. -/
def Rule.reach (r : Rule) : Nat :=
  if Rule.expression.rank ≤ r.rank then 1 else 0

theorem Call.Below.reach {c d : Call} (h : d.Below c) :
    d.text.length + d.rule.reach ≤ c.text.length + c.rule.reach := by
  have hle := h.left.length_le
  unfold Rule.reach
  rcases h with ⟨-, hshorter | hrank⟩ <;> split <;> split <;> omega

theorem Call.Below.reach_expression {d : Call} {cs : List Char} (h : d.Below ⟨.expression, cs⟩) :
    d.text.length + d.rule.reach ≤ cs.length := by
  have hle := h.left.length_le
  unfold Rule.reach
  rcases h with ⟨-, hshorter | hrank⟩
  · have hshorter : d.text.length < cs.length := hshorter
    split <;> omega
  · have hrank : ¬Rule.expression.rank ≤ d.rule.rank := Nat.not_le_of_lt hrank
    rw [if_neg hrank]
    exact hle

theorem rulesOver_agree {inner inner' : Parser Expr} {n : Nat}
    (hinner : ∀ ds, ds.length < n → inner ds = inner' ds ∧ (inner ds).GetsOn ds) (c : Call)
    (hc : c.text.length + c.rule.reach ≤ n) :
    c.outcome (rulesOver inner) = c.outcome (rulesOver inner') ∧
      (c.outcome (rulesOver inner)).GetsOn c.text := by
  induction c using Call.induction with
  | step c ih =>
      rcases c with ⟨r, cs⟩
      by_cases hr : r = .expression
      · subst hr
        exact hinner cs hc
      · unfold Call.outcome
        dsimp only
        rw [rulesOver_eq_body inner hr, rulesOver_eq_body inner' hr]
        exact body_depends fun d hd => ih d hd (Nat.le_trans hd.reach hc)

theorem expressionWithin_agree {n m : Nat} {cs : List Char} (hn : cs.length < n)
    (hm : cs.length < m) :
    expressionWithin n cs = expressionWithin m cs ∧ (expressionWithin n cs).GetsOn cs := by
  induction n generalizing m cs with
  | zero => exact absurd hn (Nat.not_lt_zero _)
  | succ n ih =>
      obtain ⟨m, rfl⟩ : ∃ k, m = k + 1 := ⟨m - 1, by omega⟩
      change Call.outcome (body (rulesOver (expressionWithin n))) ⟨.expression, cs⟩ =
          Call.outcome (body (rulesOver (expressionWithin m))) ⟨.expression, cs⟩ ∧
        Parsed.GetsOn cs (Call.outcome (body (rulesOver (expressionWithin n))) ⟨.expression, cs⟩)
      refine body_depends fun d hd => ?_
      exact rulesOver_agree (fun ds hds => ih (by omega) (by omega)) d hd.reach_expression

/-- An expression nests expressions, with no budget for it. -/
theorem expression_eq : expression = conditional expression := by
  funext cs
  change Call.outcome (body (rulesOver (expressionWithin cs.length))) ⟨.expression, cs⟩ =
    Call.outcome (body (rulesOver expression)) ⟨.expression, cs⟩
  refine (body_depends fun d hd => ?_).left
  exact rulesOver_agree (fun ds hds => expressionWithin_agree hds (Nat.lt_succ_self _)) d
    hd.reach_expression

theorem Rule.parser_eq (r : Rule) : r.parser = body Rule.parser r := by
  by_cases hr : r = .expression
  · subst hr
    exact expression_eq
  · exact rulesOver_eq_body Grammar.expression hr

theorem Rule.getsOn_parser (r : Rule) : GetsOn r.parser := by
  intro cs
  have hcalls : ∀ c : Call, (c.outcome Rule.parser).GetsOn c.text := by
    intro c
    induction c using Call.induction with
    | step c ih =>
        unfold Call.outcome
        rw [Rule.parser_eq]
        exact (body_depends fun d hd => ⟨rfl, ih d hd⟩).right
  exact hcalls ⟨r, cs⟩

/-!
## Nested calls
-/

/-- The rules where one call comes to no end. -/
def Callees.without (calls : Callees) (d : Call) : Callees :=
  fun r cs => if Call.mk r cs = d then .spent else calls r cs

/-- The first call makes the second one: without an end of the second it has none. -/
def Call.Makes (c d : Call) : Prop :=
  c.outcome (body (Callees.without Rule.parser d)) = .spent

theorem Call.Makes.below {c d : Call} (h : c.Makes d) : d.Below c := by
  by_contra hnot
  have hsame : ∀ b : Call, b.Below c →
      b.outcome (Callees.without Rule.parser d) = b.outcome Rule.parser := by
    intro b hb
    refine if_neg fun heq => hnot ?_
    rw [← heq]
    exact hb
  have hends := (body_depends fun b hb =>
    ⟨hsame b hb, hsame b hb ▸ b.rule.getsOn_parser b.text⟩).right
  exact hends.ne_spent h

theorem Call.below_of_transGen {c d : Call} (h : Relation.TransGen Call.Makes c d) :
    d.Below c := by
  induction h with
  | single h => exact h.below
  | tail _ h ih => exact h.below.trans ih

/-- Between two calls of one rule, the one inside the other, a character is taken. -/
theorem Call.consumes_of_reentry {r : Rule} {cs ds : List Char}
    (h : Relation.TransGen Call.Makes ⟨r, cs⟩ ⟨r, ds⟩) : ds <:+ cs ∧ ds.length < cs.length := by
  rcases below_of_transGen h with ⟨hsuffix, hshorter | hrank⟩
  · exact ⟨hsuffix, hshorter⟩
  · exact absurd hrank (Nat.lt_irrefl _)

theorem Call.length_le_weight {c : Call} {chain : List Call}
    (h : List.IsChain Call.Makes (c :: chain)) : chain.length ≤ c.weight := by
  induction chain generalizing c with
  | nil => exact Nat.zero_le _
  | cons d chain ih =>
      obtain ⟨hmakes, hchain⟩ := List.isChain_cons_cons.mp h
      exact Nat.lt_of_le_of_lt (ih hchain) hmakes.below.weight_lt

def runWithin : Nat → Callees
  | 0 => fun _ _ => .spent
  | depth + 1 => body (runWithin depth)

theorem runWithin_eq {depth : Nat} (c : Call) (h : c.weight < depth) :
    c.outcome (runWithin depth) = c.outcome Rule.parser := by
  induction depth generalizing c with
  | zero => exact absurd h (Nat.not_lt_zero _)
  | succ depth ih =>
      have hparser : c.outcome Rule.parser = c.outcome (body Rule.parser) := by
        unfold Call.outcome
        rw [Rule.parser_eq]
      rw [hparser]
      refine (body_depends fun d hd => ?_).left
      have hd := ih d (Nat.lt_of_lt_of_le hd.weight_lt (Nat.le_of_lt_succ h))
      rw [hd]
      exact ⟨rfl, d.rule.getsOn_parser d.text⟩

-- At the end of the text the calls nest through all ranks below that of an expression.
example : runWithin 12 .expression [] = .spent ∧ runWithin 13 .expression [] = .rejected [] :=
  ⟨rfl, rfl⟩

end Grammar
end Template
end TransformChain
