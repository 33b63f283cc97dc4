import Mathlib.Data.List.Forall2
import TransformChain.Proofs.Parser.Progress
import TransformChain.Proofs.Template.Levels

/-!
# The rules of the grammar

The grammar as rules that call one another.  Each rule has a rank.  Where it begins a rule calls
rules of lower rank only, and any rule once it has taken a character.  So what a rule does on a text
depends on what the rules do on shorter texts and on what those of lower rank do on the same text.
-/

namespace TransformChain
namespace Template
namespace Grammar

open Text TransformChain.Parser

/-!
## Words and literals
-/

theorem getsOn_word : GetsOn word := by
  intro cs
  cases cs with
  | nil => trivial
  | cons c rest =>
      rw [word_cons]
      split
      · exact ⟨(List.dropWhile_suffix isWordPart).trans (List.suffix_cons c rest),
          Nat.lt_succ_of_le (List.dropWhile_suffix isWordPart).length_le⟩
      · trivial

theorem getsOn_keyword (name : String) : GetsOn (keyword name) :=
  getsOn_of_alike ((getsOn_word.alike.verify _).spaced closedBehind_all)

theorem getsOn_identifier : GetsOn identifier :=
  getsOn_of_alike (getsOn_word.alike.verify _)

theorem getsOn_wordOp (op : BinaryOp) : GetsOn (wordOp op) :=
  getsOn_of_alike (getsOn_keyword op.symbol).alike.map

theorem getsOn_symbolOp (op : BinaryOp) : GetsOn (symbolOp op) := by
  have hsymbol : op.symbol.toList ≠ [] := by
    cases op <;> decide
  exact getsOn_of_alike (getsOn_exactly hsymbol).alike.map

theorem getsOn_symbolOps (ops : List BinaryOp) :
    GetsOn (spaced (oneOf (ops.map symbolOp))) := by
  refine getsOn_of_alike ((getOnAlike_oneOf ?_).spaced closedBehind_all)
  rw [List.forall₂_map_left_iff, List.forall₂_map_right_iff, List.forall₂_same]
  exact fun op _ => (getsOn_symbolOp op).alike

theorem stringBody_suffix {quote : Char} {cs content after : List Char}
    (h : stringBody quote cs = some (content, after)) : after <:+ cs := by
  fun_induction stringBody quote cs generalizing content with
  | case1 => cases h
  | case2 =>
      cases h
      exact List.nil_suffix
  | case3 => cases h
  | case4 d rest content' after' hrest ih =>
      cases h
      exact (ih hrest).trans ((List.suffix_cons d rest).trans (List.suffix_cons _ _))
  | case5 => cases h
  | case6 =>
      cases h
      exact List.suffix_cons _ _
  | case7 c d rest _ _ content' after' hrest ih =>
      cases h
      exact (ih hrest).trans (List.suffix_cons c _)
  | case8 => cases h

theorem getsOn_stringText : GetsOn stringText := by
  intro cs
  unfold stringText
  split
  · trivial
  case h_2 c rest =>
    split
    · cases h : stringBody c rest with
      | none => trivial
      | some read =>
          have hsuffix := stringBody_suffix h
          exact ⟨hsuffix.trans (List.suffix_cons c rest), Nat.lt_succ_of_le hsuffix.length_le⟩
    · trivial

theorem getsOn_stringLiteral : GetsOn stringLiteral :=
  getsOn_of_alike getsOn_stringText.alike.map

theorem getsOn_number : GetsOn number := by
  refine getsOn_of_alike (GetOnAlike.mapSome ?_ _)
  refine (getsOn_takeWhile1 Char.isDigit).alike.bind fun whole => ?_
  refine LeaveAlike.bind ?_ (closedBehind_behind _) fun fraction => leaveAlike_pure _
  exact ((getsOn_char '.').alike.bind
    fun _ => (getsOn_takeWhile1 Char.isDigit).alike.leaveAlike).optional

theorem getsOn_constant : GetsOn constant :=
  getsOn_of_alike (getsOn_word.alike.mapSome _)

theorem getsOn_reference : GetsOn reference :=
  getsOn_of_alike getsOn_identifier.alike.map

/-!
## Rules and their calls
-/

/-- The parsers that call one another, from the loosest level of the grammar on. -/
inductive Rule where
  | expression
  | disjunction
  | conjunction
  | negation
  | comparison
  | concatenation
  | sum
  | product
  | unary
  | filtered
  | postfixed
  | primary
  | parenthesized
  | listLiteral
  | dictLiteral
  | stringLiteral
  | number
  | constant
  | reference
  | suffix
  | filterCall
  | arguments
  | argument
deriving DecidableEq

namespace Rule

@[reducible] def Result : Rule → Type
  | suffix => Suffix
  | filterCall => String × List Expr
  | arguments => List CallArgument
  | argument => CallArgument
  | _ => Expr

/-- Where it begins, a rule calls rules of lower rank only. -/
def rank : Rule → Nat
  | argument => 13
  | expression => 12
  | disjunction => 11
  | conjunction => 10
  | negation => 9
  | comparison => 8
  | concatenation => 7
  | sum => 6
  | product => 5
  | unary => 4
  | filtered => 3
  | postfixed => 2
  | primary | suffix => 1
  | _ => 0

def ranks : Nat := 14

theorem rank_lt (r : Rule) : r.rank < ranks := by
  cases r <;> decide

end Rule

abbrev Callees := (r : Rule) → Parser r.Result

/-- What a rule does itself, with calls in place of the other rules and of its own recursion. -/
def body (calls : Callees) : (r : Rule) → Parser r.Result
  | .expression => do
      let yes ← calls .disjunction
      let tail ← Parser.optional (do
        let _ ← keyword "if"
        let condition ← calls .disjunction
        let no ← Parser.optional (elsePart (calls .expression))
        return (condition, no))
      match tail with
      | none => return yes
      | some (condition, no) => return .cond condition yes no
  | .disjunction => leftGrouped (wordOp .or) (calls .conjunction)
  | .conjunction => leftGrouped (wordOp .and) (calls .negation)
  | .negation =>
      orElse
        (do
          let _ ← keyword "not"
          let operand ← calls .negation
          return .not operand)
        (calls .comparison)
  | .comparison => do
      let left ← calls .concatenation
      let tail ← Parser.optional (oneOf [
        do
          let op ← comparisonOp
          let right ← calls .concatenation
          return .binary op right,
        do
          let _ ← keyword "not"
          let _ ← keyword "in"
          let right ← calls .concatenation
          return .binary .notMem right,
        do
          let _ ← keyword "in"
          let right ← calls .concatenation
          return .binary .mem right,
        do
          let _ ← keyword "is"
          let negation ← Parser.optional (keyword "not")
          let name ← spaced word
          return .test negation.isSome name])
      return Comparand.apply left tail
  | .concatenation => leftGrouped (spaced (symbolOp .concat)) (calls .sum)
  | .sum => leftGrouped (spaced (oneOf [symbolOp .add, symbolOp .sub])) (calls .product)
  | .product =>
      leftGrouped (spaced (oneOf [symbolOp .mul, symbolOp .div, symbolOp .mod])) (calls .unary)
  | .unary =>
      orElse
        (do
          gap
          let _ ← char '-'
          let operand ← calls .unary
          return .neg operand)
        (do
          gap
          calls .filtered)
  | .filtered => do
      let base ← calls .postfixed
      let filters ← many (calls .filterCall)
      return filters.foldl (fun value call => .filter value call.1 call.2) base
  | .postfixed => do
      let base ← calls .primary
      let suffixes ← many (calls .suffix)
      return suffixes.foldl Suffix.apply base
  | .primary =>
      oneOf [calls .parenthesized, calls .listLiteral, calls .dictLiteral, calls .stringLiteral,
        calls .number, calls .constant, calls .reference]
  | .parenthesized => parenthesized (calls .expression)
  | .listLiteral => listLiteral (calls .expression)
  | .dictLiteral => dictLiteral (calls .expression)
  | .stringLiteral => stringLiteral
  | .number => number
  | .constant => constant
  | .reference => reference
  | .suffix =>
      oneOf [attrSuffix, indexSuffix (calls .expression), do
        gap
        let args ← calls .arguments
        return .call args]
  | .filterCall => do
      let _ ← spaced (char '|')
      let name ← word
      let args ← Parser.optional (calls .arguments)
      return (name, positional (args.getD []))
  | .arguments => bracketed '(' ')' (calls .argument)
  | .argument => orElse (namedArgument (calls .expression)) (plainArgument (calls .expression))

/-- The rules as the grammar has them, over a parser for nested expressions. -/
def rulesOver (inner : Parser Expr) : Callees
  | .expression => inner
  | .disjunction => disjunction inner
  | .conjunction => conjunction inner
  | .negation => negation inner
  | .comparison => comparison inner
  | .concatenation => concatenation inner
  | .sum => sum inner
  | .product => product inner
  | .unary => unary inner
  | .filtered => filtered inner
  | .postfixed => postfixed inner
  | .primary => primary inner
  | .parenthesized => parenthesized inner
  | .listLiteral => listLiteral inner
  | .dictLiteral => dictLiteral inner
  | .stringLiteral => stringLiteral
  | .number => number
  | .constant => constant
  | .reference => reference
  | .suffix => suffix inner
  | .filterCall => filterCall inner
  | .arguments => arguments inner
  | .argument => orElse (namedArgument inner) (plainArgument inner)

def Rule.parser : Callees :=
  rulesOver Grammar.expression

/-!
## Signs without a budget
-/

section Signs

variable {sign : Parser α} {wrap : Expr → Expr} {base : Parser Expr} {cs : List Char}

theorem signedWithin_eq (hsign : GetsOn sign) {budget more : Nat} (hbudget : cs.length < budget)
    (hmore : cs.length < more) :
    signedWithin sign wrap base budget cs = signedWithin sign wrap base more cs := by
  induction budget generalizing cs more with
  | zero => exact absurd hbudget (Nat.not_lt_zero _)
  | succ budget ih =>
      obtain ⟨more, rfl⟩ : ∃ n, more = n + 1 := ⟨more - 1, by omega⟩
      refine orElse_congr (bind_alike rfl fun a mid hmid => bind_eq_of_eq ?_)
      have hshorter := (hsign.taken hmid).right
      exact ih (by omega) (by omega)

theorem signed_eq (hsign : GetsOn sign) :
    signed sign wrap base =
      orElse
        (do
          let _ ← sign
          let operand ← signed sign wrap base
          return wrap operand)
        base := by
  funext cs
  refine orElse_congr (bind_alike rfl fun a mid hmid => bind_eq_of_eq ?_)
  exact signedWithin_eq hsign (hsign.taken hmid).right (Nat.lt_succ_self _)

end Signs

theorem rulesOver_eq_body (inner : Parser Expr) {r : Rule} (hr : r ≠ .expression) :
    rulesOver inner r = body (rulesOver inner) r := by
  cases r with
  | expression => exact absurd rfl hr
  | negation =>
      change negation inner = orElse (do
        let _ ← keyword "not"
        let operand ← negation inner
        return .not operand) (comparison inner)
      rw [negation_eq]
      exact signed_eq (getsOn_keyword "not")
  | unary =>
      change unary inner = orElse (do
        let _ ← afterGap (char '-')
        let operand ← unary inner
        return .neg operand) (afterGap (filtered inner))
      rw [unary_eq]
      refine signed_eq (getsOn_of_alike ?_)
      exact leaveAlike_gap.bind_getOn closedBehind_all fun _ => (getsOn_char '-').alike
  | _ => rfl

/-!
## What a rule depends on
-/

section Depending

variable {texts : List Char → Prop}

theorem getOnAlike_leftGrouped {operator : Parser BinaryOp} {operand operand' : Parser Expr}
    (hoperator : GetsOn operator) (hoperand : GetOnAlike texts operand operand')
    (hclosed : ClosedBehind texts) :
    GetOnAlike texts (leftGrouped operator operand) (leftGrouped operator operand') := by
  have hbelow := closedBehind_behind texts
  refine hoperand.bind fun first => ?_
  refine (GetOnAlike.many ?_ hbelow).bind hbelow fun others => leaveAlike_pure _
  exact hoperator.alike.bind_leave hbelow fun op => (hoperand.behind hclosed).map.leaveAlike

theorem getOnAlike_bracketed {item item' : Parser α} (opening closing : Char)
    (hitem : GetOnAlike (Behind texts) item item') :
    GetOnAlike texts (bracketed opening closing item) (bracketed opening closing item') := by
  have hbelow := closedBehind_behind texts
  refine (getsOn_char opening).alike.bind fun _ => ?_
  refine ((getsOn_char ',').alike.separated hitem hbelow).bind hbelow fun items => ?_
  refine ((getsOn_char ',').alike.spaced hbelow).optional.bind hbelow fun _ => ?_
  refine leaveAlike_gap.bind hbelow fun _ => ?_
  exact (getsOn_char closing).alike.map.leaveAlike

/-- What a rule does on the texts is told by what the rules of lower rank do on them, and by what
all rules do on the texts behind. -/
theorem body_alike {calls calls' : Callees} {r : Rule} (hclosed : ClosedBehind texts)
    (hlower : ∀ q : Rule, q.rank < r.rank → GetOnAlike texts (calls q) (calls' q))
    (hbehind : ∀ q : Rule, GetOnAlike (Behind texts) (calls q) (calls' q)) :
    GetOnAlike texts (body calls r) (body calls' r) := by
  have hbelow := closedBehind_behind texts
  have hnested := (hbehind .expression).spaced hbelow
  cases r with
  | expression =>
      refine (hlower .disjunction (by decide)).bind fun yes => ?_
      refine LeaveAlike.bind (GetOnAlike.optional ?_) hbelow fun tail => ?_
      · refine (getsOn_keyword "if").alike.bind_leave hbelow fun _ => ?_
        refine (hbehind .disjunction).leaveAlike.bind hbelow fun condition => ?_
        refine LeaveAlike.bind (GetOnAlike.optional ?_) hbelow fun no => leaveAlike_pure _
        exact (getsOn_keyword "else").alike.bind_leave hbelow
          fun _ => (hbehind .expression).leaveAlike
      · cases tail with
        | none => exact leaveAlike_pure _
        | some parts => exact leaveAlike_pure _
  | disjunction =>
      exact getOnAlike_leftGrouped (getsOn_wordOp .or) (hlower .conjunction (by decide)) hclosed
  | conjunction =>
      exact getOnAlike_leftGrouped (getsOn_wordOp .and) (hlower .negation (by decide)) hclosed
  | negation =>
      refine GetOnAlike.orElse ?_ (hlower .comparison (by decide))
      exact (getsOn_keyword "not").alike.bind fun _ => (hbehind .negation).map.leaveAlike
  | comparison =>
      have hright := hbehind .concatenation
      refine (hlower .concatenation (by decide)).bind fun left => ?_
      refine LeaveAlike.bind (GetOnAlike.optional (getOnAlike_oneOf ?_)) hbelow
        fun tail => leaveAlike_pure _
      refine .cons ?_ (.cons ?_ (.cons ?_ (.cons ?_ .nil)))
      · exact (getsOn_symbolOps [.eq, .ne, .le, .ge, .lt, .gt]).alike.bind_leave hbelow
          fun op => hright.map.leaveAlike
      · exact (getsOn_keyword "not").alike.bind_leave hbelow fun _ =>
          (getsOn_keyword "in").alike.leaveAlike.bind hbelow fun _ => hright.map.leaveAlike
      · exact (getsOn_keyword "in").alike.bind_leave hbelow fun _ => hright.map.leaveAlike
      · exact (getsOn_keyword "is").alike.bind_leave hbelow fun _ =>
          (getsOn_keyword "not").alike.optional.bind hbelow fun negation =>
            (getsOn_word.alike.spaced hbelow).map.leaveAlike
  | concatenation =>
      exact getOnAlike_leftGrouped (getsOn_symbolOps [.concat]) (hlower .sum (by decide)) hclosed
  | sum =>
      exact getOnAlike_leftGrouped (getsOn_symbolOps [.add, .sub]) (hlower .product (by decide))
        hclosed
  | product =>
      exact getOnAlike_leftGrouped (getsOn_symbolOps [.mul, .div, .mod])
        (hlower .unary (by decide)) hclosed
  | unary =>
      refine GetOnAlike.orElse ?_ ?_
      · exact leaveAlike_gap.bind_getOn hclosed fun _ =>
          (getsOn_char '-').alike.bind fun _ => (hbehind .unary).map.leaveAlike
      · exact leaveAlike_gap.bind_getOn hclosed fun _ => hlower .filtered (by decide)
  | filtered =>
      refine (hlower .postfixed (by decide)).bind fun base => ?_
      exact ((hbehind .filterCall).many hbelow).bind hbelow fun filters => leaveAlike_pure _
  | postfixed =>
      refine (hlower .primary (by decide)).bind fun base => ?_
      exact ((hbehind .suffix).many hbelow).bind hbelow fun suffixes => leaveAlike_pure _
  | primary =>
      refine getOnAlike_oneOf (.cons (hlower .parenthesized (by decide)) ?_)
      refine .cons (hlower .listLiteral (by decide)) (.cons (hlower .dictLiteral (by decide)) ?_)
      refine .cons (hlower .stringLiteral (by decide)) (.cons (hlower .number (by decide)) ?_)
      exact .cons (hlower .constant (by decide)) (.cons (hlower .reference (by decide)) .nil)
  | parenthesized =>
      exact (getsOn_char '(').alike.bind fun _ => hnested.leaveAlike.bind hbelow fun expr =>
        (getsOn_char ')').alike.map.leaveAlike
  | listLiteral => exact (getOnAlike_bracketed '[' ']' hnested).map
  | dictLiteral =>
      refine (getOnAlike_bracketed '\x7b' '\x7d' ?_).map
      exact hnested.bind_leave hbelow fun key =>
        (getsOn_char ':').alike.leaveAlike.bind hbelow fun _ => hnested.map.leaveAlike
  | stringLiteral => exact getsOn_stringLiteral.alike
  | number => exact getsOn_number.alike
  | constant => exact getsOn_constant.alike
  | reference => exact getsOn_reference.alike
  | suffix =>
      refine getOnAlike_oneOf (.cons ?_ (.cons ?_ (.cons ?_ .nil)))
      · exact leaveAlike_gap.bind_getOn hclosed fun _ =>
          (getsOn_char '.').alike.bind fun _ => getsOn_word.alike.map.leaveAlike
      · exact leaveAlike_gap.bind_getOn hclosed fun _ => (getsOn_char '[').alike.bind fun _ =>
          hnested.leaveAlike.bind hbelow fun key => (getsOn_char ']').alike.map.leaveAlike
      · exact leaveAlike_gap.bind_getOn hclosed fun _ => (hlower .arguments (by decide)).map
  | filterCall =>
      refine ((getsOn_char '|').alike.spaced hclosed).bind fun _ => ?_
      refine getsOn_word.alike.leaveAlike.bind hbelow fun name => ?_
      exact (hbehind .arguments).optional.bind hbelow fun args => leaveAlike_pure _
  | arguments => exact getOnAlike_bracketed '(' ')' (hbehind .argument)
  | argument =>
      refine GetOnAlike.orElse ?_ ((hlower .expression (by decide)).spaced hclosed).map
      refine (getsOn_identifier.alike.spaced hclosed).bind fun name => ?_
      refine (getsOn_char '=').alike.leaveAlike.bind hbelow fun _ => ?_
      exact (getsOn_char '=').alike.notAhead.bind hbelow fun _ => hnested.map.leaveAlike

end Depending

end Grammar
end Template
end TransformChain
