import TransformChain.Proofs.Parser.Accepting
import TransformChain.Proofs.Template.Levels
import TransformChain.Proofs.Template.Printing

/-!
# Operands

What the grammar read when it accepts an expression that is no operation: every level handed on what
the next tighter one accepted, down to the operand and what is attached to it.
-/

namespace TransformChain
namespace Template
namespace Grammar

open Text TransformChain.Parser

variable {inner : Parser Expr} {cs mid rest : List Char} {e : Expr}

/-!
## From level to level
-/

theorem eq_of_foldl {f : Expr → α → Expr} {first : Expr} {parts : List α}
    (h : parts.foldl f first = e) (hf : ∀ base part, f base part ≠ e) : parts = [] ∧ first = e := by
  rcases List.eq_nil_or_concat parts with rfl | ⟨before, last, rfl⟩
  · exact ⟨rfl, h⟩
  · rw [List.concat_eq_append, List.foldl_append] at h
    exact absurd h (hf _ _)

theorem operand_of_leftGrouped {operator : Parser BinaryOp} {operand : Parser Expr}
    (he : ∀ op left right, e ≠ .binary op left right)
    (h : leftGrouped operator operand cs = .accepted e rest) : operand cs = .accepted e rest := by
  unfold leftGrouped at h
  rcases bind_eq_accepted_iff.mp h with ⟨first, mid, hfirst, hmore⟩
  rcases bind_eq_accepted_iff.mp hmore with ⟨others, left, hothers, hresult⟩
  obtain ⟨hfold, rfl⟩ := pure_eq_accepted_iff.mp hresult
  obtain ⟨rfl, rfl⟩ := eq_of_foldl hfold fun left part => (he part.1 left part.2).symm
  rw [(runsMany_of_many hothers).eq_of_nil]
  exact hfirst

theorem base_of_signed {sign : Parser α} {wrap : Expr → Expr} {base : Parser Expr}
    (he : ∀ operand, e ≠ wrap operand)
    (h : signed sign wrap base cs = .accepted e rest) : base cs = .accepted e rest := by
  unfold signed signedWithin at h
  rcases orElse_accepted h with hsigned | hbase
  · rcases bind_eq_accepted_iff.mp hsigned with ⟨_, mid, _, hmore⟩
    rcases bind_eq_accepted_iff.mp hmore with ⟨operand, left, _, hresult⟩
    exact absurd (pure_eq_accepted_iff.mp hresult).left.symm (he operand)
  · exact hbase

theorem concatenation_of_comparison (hbinary : ∀ op left right, e ≠ .binary op left right)
    (htest : ∀ value name negated, e ≠ .test value name negated)
    (h : comparison inner cs = .accepted e rest) : concatenation inner cs = .accepted e rest := by
  unfold comparison at h
  rcases bind_eq_accepted_iff.mp h with ⟨first, mid, hfirst, hmore⟩
  rcases bind_eq_accepted_iff.mp hmore with ⟨tail, left, htail, hresult⟩
  obtain ⟨rfl, rfl⟩ := pure_eq_accepted_iff.mp hresult
  rcases optional_eq_accepted htail with ⟨rfl, rfl⟩ | ⟨tail, rfl, _⟩
  · exact hfirst
  · cases tail with
    | binary op right => exact absurd rfl (hbinary _ _ _)
    | test negated name => exact absurd rfl (htest _ _ _)

theorem postfixed_of_filtered (he : ∀ value name args, e ≠ .filter value name args)
    (h : filtered inner cs = .accepted e rest) : postfixed inner cs = .accepted e rest := by
  unfold filtered at h
  rcases bind_eq_accepted_iff.mp h with ⟨base, mid, hbase, hmore⟩
  rcases bind_eq_accepted_iff.mp hmore with ⟨filters, left, hfilters, hresult⟩
  obtain ⟨hfold, rfl⟩ := pure_eq_accepted_iff.mp hresult
  obtain ⟨rfl, rfl⟩ := eq_of_foldl hfold fun value call => (he value call.1 call.2).symm
  rw [(runsMany_of_many hfilters).eq_of_nil]
  exact hbase

theorem postfixed_of_conditional (he : e.level = 10)
    (h : conditional inner cs = .accepted e rest) :
    postfixed inner (dropGap cs) = .accepted e rest := by
  have hbinary : ∀ op left right, e ≠ .binary op left right := by
    rintro op left right rfl
    have hle : op.level ≤ 7 := op.level_le
    rw [Expr.level] at he
    omega
  have hdisjunction : disjunction inner cs = .accepted e rest := by
    unfold conditional at h
    rcases bind_eq_accepted_iff.mp h with ⟨yes, mid, hyes, hmore⟩
    rcases bind_eq_accepted_iff.mp hmore with ⟨tail, left, htail, hresult⟩
    rcases optional_eq_accepted htail with ⟨rfl, rfl⟩ | ⟨⟨condition, no⟩, rfl, _⟩
    · obtain ⟨rfl, rfl⟩ := pure_eq_accepted_iff.mp hresult
      exact hyes
    · obtain ⟨rfl, -⟩ := pure_eq_accepted_iff.mp hresult
      cases he
  have hnegation := operand_of_leftGrouped hbinary (operand_of_leftGrouped hbinary hdisjunction)
  rw [negation_eq] at hnegation
  have hcomparison := base_of_signed (by rintro operand rfl; cases he) hnegation
  have hconcatenation := concatenation_of_comparison hbinary
    (by rintro value name negated rfl; cases he) hcomparison
  have hunary := operand_of_leftGrouped hbinary
    (operand_of_leftGrouped hbinary (operand_of_leftGrouped hbinary hconcatenation))
  rw [unary_eq] at hunary
  have hfiltered := base_of_signed (by rintro operand rfl; cases he) hunary
  exact postfixed_of_filtered (by rintro value name args rfl; cases he) hfiltered

/-!
## Literals and calls
-/

theorem primary_of_postfixed_lit {value : Value}
    (h : postfixed inner cs = .accepted (.lit value) rest) :
    primary inner cs = .accepted (.lit value) rest := by
  unfold postfixed at h
  rcases bind_eq_accepted_iff.mp h with ⟨base, mid, hbase, hmore⟩
  rcases bind_eq_accepted_iff.mp hmore with ⟨suffixes, left, hsuffixes, hresult⟩
  obtain ⟨hfold, rfl⟩ := pure_eq_accepted_iff.mp hresult
  obtain ⟨rfl, rfl⟩ := eq_of_foldl hfold fun base suffix => by
    cases suffix <;> exact Expr.noConfusion
  rw [(runsMany_of_many hsuffixes).eq_of_nil]
  exact hbase

theorem arguments_of_suffix {args : List CallArgument}
    (h : suffix inner cs = .accepted (.call args) rest) :
    arguments inner (dropGap cs) = .accepted args rest := by
  rcases exists_of_oneOf h with ⟨p, hmem, hp⟩
  rcases List.mem_cons.mp hmem with rfl | hmem
  · rcases bind_eq_accepted_iff.mp hp with ⟨_, _, _, hp⟩
    rcases bind_eq_accepted_iff.mp hp with ⟨_, _, _, hp⟩
    rcases bind_eq_accepted_iff.mp hp with ⟨_, _, _, hp⟩
    cases (pure_eq_accepted_iff.mp hp).left
  rcases List.mem_cons.mp hmem with rfl | hmem
  · rcases bind_eq_accepted_iff.mp hp with ⟨_, _, _, hp⟩
    rcases bind_eq_accepted_iff.mp hp with ⟨_, _, _, hp⟩
    rcases bind_eq_accepted_iff.mp hp with ⟨_, _, _, hp⟩
    rcases bind_eq_accepted_iff.mp hp with ⟨_, _, _, hp⟩
    cases (pure_eq_accepted_iff.mp hp).left
  · rw [List.mem_singleton.mp hmem] at hp
    rcases bind_eq_accepted_iff.mp hp with ⟨_, _, hgap, hp⟩
    cases hgap
    rcases bind_eq_accepted_iff.mp hp with ⟨found, _, hfound, hp⟩
    obtain ⟨hargs, rfl⟩ := pure_eq_accepted_iff.mp hp
    cases hargs
    exact hfound

theorem arguments_of_postfixed_call {function : String} {keywords : List (String × Expr)}
    (h : postfixed inner cs = .accepted (.call (.var function) [] keywords) rest)
    (hbase : ∀ callee args named mid, primary inner cs ≠ .accepted (.call callee args named) mid) :
    ∃ mid args, primary inner cs = .accepted (.var function) mid ∧
      arguments inner (dropGap mid) = .accepted args rest ∧ positional args = [] ∧
      named args = keywords := by
  unfold postfixed at h
  rcases bind_eq_accepted_iff.mp h with ⟨base, mid, hprimary, hmore⟩
  rcases bind_eq_accepted_iff.mp hmore with ⟨suffixes, left, hsuffixes, hresult⟩
  obtain ⟨hfold, rfl⟩ := pure_eq_accepted_iff.mp hresult
  rcases List.eq_nil_or_concat suffixes with rfl | ⟨before, last, rfl⟩
  · cases hfold
    exact absurd hprimary (hbase _ _ _ _)
  · rw [List.concat_eq_append, List.foldl_append] at hfold
    cases last with
    | attr name => cases hfold
    | index key => cases hfold
    | call args =>
        injection hfold with hcallee hpositional hnamed
        obtain ⟨rfl, rfl⟩ := eq_of_foldl hcallee fun base suffix => by
          cases suffix <;> exact Expr.noConfusion
        refine ⟨mid, args, hprimary, ?_, hpositional, hnamed⟩
        rcases runsMany_of_many hsuffixes with _ | ⟨hfirst, hothers⟩
        rw [hothers.eq_of_nil]
        exact arguments_of_suffix hfirst

/-!
## Arguments
-/

theorem exists_of_arguments {first : CallArgument} {others : List CallArgument}
    (h : arguments inner cs = .accepted (first :: others) rest) :
    ∃ start mid left, cs = '(' :: start ∧
      orElse (namedArgument inner) (plainArgument inner) start = .accepted first mid ∧
      RunsMany (char ',' >>= fun _ => orElse (namedArgument inner) (plainArgument inner)) mid
        others left := by
  rcases bind_eq_accepted_iff.mp h with ⟨opening, start, hopening, h⟩
  rcases bind_eq_accepted_iff.mp h with ⟨items, left, hitems, h⟩
  rcases bind_eq_accepted_iff.mp h with ⟨_, _, _, h⟩
  rcases bind_eq_accepted_iff.mp h with ⟨_, _, _, h⟩
  rcases bind_eq_accepted_iff.mp h with ⟨_, _, _, h⟩
  obtain ⟨rfl, rfl⟩ := pure_eq_accepted_iff.mp h
  rcases exists_of_separated hitems with ⟨mid, hfirst, hothers⟩
  exact ⟨start, mid, left, eq_cons_of_char hopening, hfirst, hothers⟩

theorem exists_of_named {name : String} {value : Expr}
    (h : orElse (namedArgument inner) (plainArgument inner) cs =
      .accepted (some name, value) rest) :
    ∃ mid start left, word (dropGap cs) = .accepted name mid ∧ dropGap mid = '=' :: start ∧
      inner (dropGap start) = .accepted value left ∧ rest = dropGap left := by
  rcases orElse_accepted h with hnamed | hplain
  · rcases bind_eq_accepted_iff.mp hnamed with ⟨found, mid, hname, hnamed⟩
    rcases bind_eq_accepted_iff.mp hnamed with ⟨equals, start, hequals, hnamed⟩
    rcases bind_eq_accepted_iff.mp hnamed with ⟨_, same, hahead, hnamed⟩
    rcases bind_eq_accepted_iff.mp hnamed with ⟨read, left, hvalue, hnamed⟩
    obtain ⟨hpair, rfl⟩ := pure_eq_accepted_iff.mp hnamed
    cases hpair
    rw [eq_of_notAhead hahead] at hvalue
    rcases exists_of_spaced hname with ⟨behind, hword, rfl⟩
    rcases exists_of_spaced hvalue with ⟨last, hlast, rfl⟩
    exact ⟨behind, start, last, accepted_of_verify hword, eq_cons_of_char hequals, hlast, rfl⟩
  · rcases bind_eq_accepted_iff.mp hplain with ⟨read, left, _, hplain⟩
    cases (pure_eq_accepted_iff.mp hplain).left

/-!
## Strings and words
-/

theorem refusesHere_primary_nil (inner : Parser Expr) : RefusesHere (primary inner) [] :=
  ⟨[], rfl⟩

theorem stringBody_of_primary {quoted : List Char}
    (h : primary inner ('\'' :: quoted) = .accepted e rest) :
    ∃ content, stringBody '\'' quoted = some (content, rest) ∧
      e = .lit (.str (String.ofList content)) := by
  unfold primary at h
  rw [(refuses_parenthesized (by decide)).oneOf_eq, (refuses_listLiteral (by decide)).oneOf_eq,
    (refuses_dictLiteral (by decide)).oneOf_eq] at h
  rcases orElse_accepted h with hstring | hothers
  · rcases bind_eq_accepted_iff.mp hstring with ⟨text, left, htext, hresult⟩
    obtain ⟨rfl, rfl⟩ := pure_eq_accepted_iff.mp hresult
    rw [stringText, if_pos (by decide)] at htext
    split at htext
    case h_1 content after hbody =>
      cases htext
      exact ⟨content, hbody, rfl⟩
    case h_2 => cases htext
  · rw [(refuses_number (by decide)).oneOf_eq, (refuses_constant (by decide)).oneOf_eq] at hothers
    have hrefuses : RefusesHere word ('\'' :: quoted) := refuses_word (by decide)
    rcases hrefuses.verify.bind with ⟨place, hplace⟩
    cases hothers.symm.trans hplace

theorem word_of_primary {name : String} {left : List Char}
    (hword : word cs = .accepted name left) (h : primary inner cs = .accepted e rest) :
    (∃ value, e = .lit value) ∨ (e = .var name ∧ rest = left) := by
  rw [primary_eq_of_word hword] at h
  rcases orElse_accepted h with hconstant | hreference
  · left
    unfold constant mapSome at hconstant
    rw [hword] at hconstant
    cases hvalue : constantValue? name with
    | none =>
        simp only [hvalue] at hconstant
        cases hconstant
    | some value =>
        simp only [hvalue] at hconstant
        cases hconstant
        exact ⟨value, rfl⟩
  · right
    rcases bind_eq_accepted_iff.mp hreference with ⟨found, mid, hfound, hresult⟩
    obtain ⟨rfl, rfl⟩ := pure_eq_accepted_iff.mp hresult
    have hsame := accepted_of_verify hfound
    rw [hword] at hsame
    cases hsame
    exact ⟨rfl, rfl⟩

end Grammar
end Template
end TransformChain
