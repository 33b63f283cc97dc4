import TransformChain.Proofs.Template.Descent
import TransformChain.Proofs.Template.TreeBuilding
import TransformChain.Proofs.Template.Trimming

/-!
# Parsing ends

Every parser of expressions and statements takes at least a character of what it accepts, and so
does every round of a repetition.  A rule is called again inside itself only behind a character, so
calls nest in proportion to the length of the text.  The tags of a template are at most as many as
its characters, and the builder of its body takes one token in each step.
-/

namespace TransformChain
namespace Template

open TransformChain.Parser Grammar

/-!
## Statements
-/

namespace Statement

theorem getsOn_withExpression (first : String) (build : Expr → Statement) :
    GetsOn (withExpression first build) :=
  getsOn_of_alike ((getsOn_keyword first).alike.bind fun _ =>
    (Rule.getsOn_parser .expression).alike.map.leaveAlike)

theorem getsOn_bare (first : String) (statement : Statement) : GetsOn (bare first statement) :=
  getsOn_of_alike (getsOn_keyword first).alike.map

theorem getsOn_name : GetsOn (spaced identifier) :=
  getsOn_of_alike (getsOn_identifier.alike.spaced closedBehind_all)

theorem getsOn_forStatement : GetsOn forStatement := by
  have hbelow := closedBehind_behind fun _ => True
  have hexpression := Rule.getsOn_parser .expression
  refine getsOn_of_alike ((getsOn_keyword "for").alike.bind fun _ => ?_)
  refine getsOn_name.alike.leaveAlike.bind hbelow fun first => ?_
  refine LeaveAlike.bind (GetOnAlike.optional ?_) hbelow fun second => ?_
  · exact (getsOn_char ',').alike.bind fun _ => getsOn_name.alike.leaveAlike
  · exact (getsOn_keyword "in").alike.leaveAlike.bind hbelow fun _ =>
      hexpression.alike.map.leaveAlike

theorem getsOn_setStatement : GetsOn setStatement := by
  have hbelow := closedBehind_behind fun _ => True
  refine getsOn_of_alike ((getsOn_keyword "set").alike.bind fun _ => ?_)
  refine getsOn_name.alike.leaveAlike.bind hbelow fun name => ?_
  exact (getsOn_char '=').alike.leaveAlike.bind hbelow fun _ =>
    (Rule.getsOn_parser .expression).alike.map.leaveAlike

theorem getsOn_parameter : GetsOn parameter := by
  have hbelow := closedBehind_behind fun _ => True
  refine getsOn_of_alike (getsOn_name.alike.bind fun name => ?_)
  refine LeaveAlike.bind (GetOnAlike.optional ?_) hbelow fun default => leaveAlike_pure _
  exact (getsOn_char '=').alike.bind_leave hbelow fun _ =>
    ((Rule.getsOn_parser .expression).alike.spaced hbelow).leaveAlike

theorem getsOn_macroStatement : GetsOn macroStatement := by
  have hbelow := closedBehind_behind fun _ => True
  refine getsOn_of_alike ((getsOn_keyword "macro").alike.bind fun _ => ?_)
  refine getsOn_name.alike.leaveAlike.bind hbelow fun name => ?_
  refine (getsOn_char '(').alike.leaveAlike.bind hbelow fun _ => ?_
  refine ((getsOn_char ',').alike.separated getsOn_parameter.alike hbelow).bind hbelow
    fun params => ?_
  exact leaveAlike_gap.bind hbelow fun _ => (getsOn_char ')').alike.map.leaveAlike

theorem getsOn_statement : GetsOn statement := by
  refine getsOn_of_alike (getOnAlike_oneOf ?_)
  refine .cons (getsOn_withExpression _ _).alike (.cons (getsOn_withExpression _ _).alike ?_)
  refine .cons (getsOn_bare _ _).alike (.cons (getsOn_bare _ _).alike ?_)
  refine .cons getsOn_forStatement.alike (.cons (getsOn_bare _ _).alike ?_)
  refine .cons getsOn_setStatement.alike (.cons (getsOn_withExpression _ _).alike ?_)
  exact .cons getsOn_macroStatement.alike (.cons (getsOn_bare _ _).alike .nil)

end Statement

/-!
## Rounds
-/

inductive CommaItem : {α : Type} → Parser α → Prop where
  | element : CommaItem (spaced expression)
  | entry : CommaItem (entry expression)
  | argument : CommaItem Rule.argument.parser
  | parameter : CommaItem Statement.parameter

/-- What is repeated in expressions and statements: suffixes, filters, operators of a level with
their right operands, and items with the commas in front of all but the first. -/
inductive Round : {α : Type} → Parser α → Prop where
  | suffix : Round (suffix expression)
  | filterCall : Round (filterCall expression)
  | disjunct : Round (operation (wordOp .or) (conjunction expression))
  | conjunct : Round (operation (wordOp .and) (negation expression))
  | piece : Round (operation (spaced (symbolOp .concat)) (sum expression))
  | summand : Round (operation (spaced (oneOf [symbolOp .add, symbolOp .sub])) (product expression))
  | factor : Round (operation (spaced (oneOf [symbolOp .mul, symbolOp .div, symbolOp .mod]))
      (unary expression))
  | first {item : Parser α} : CommaItem item → Round item
  | next {item : Parser α} : CommaItem item → Round (char ',' >>= fun _ => item)

theorem getsOn_operation {operator : Parser BinaryOp} {operand : Parser Expr}
    (hoperator : GetsOn operator) (hoperand : GetsOn operand) :
    GetsOn (operation operator operand) :=
  getsOn_of_alike (hoperator.alike.bind fun _ => hoperand.alike.map.leaveAlike)

theorem CommaItem.getsOn {item : Parser α} (h : CommaItem item) : GetsOn item := by
  have hexpression : GetsOn (spaced expression) :=
    getsOn_of_alike ((Rule.getsOn_parser .expression).alike.spaced closedBehind_all)
  cases h with
  | element => exact hexpression
  | entry =>
      have hbelow := closedBehind_behind fun _ => True
      exact getsOn_of_alike (hexpression.alike.bind fun key =>
        (getsOn_char ':').alike.leaveAlike.bind hbelow fun _ => hexpression.alike.map.leaveAlike)
  | argument => exact Rule.getsOn_parser .argument
  | parameter => exact Statement.getsOn_parameter

theorem Round.getsOn {p : Parser α} (h : Round p) : GetsOn p := by
  cases h with
  | suffix => exact Rule.getsOn_parser .suffix
  | filterCall => exact Rule.getsOn_parser .filterCall
  | disjunct => exact getsOn_operation (getsOn_wordOp .or) (Rule.getsOn_parser .conjunction)
  | conjunct => exact getsOn_operation (getsOn_wordOp .and) (Rule.getsOn_parser .negation)
  | piece => exact getsOn_operation (getsOn_symbolOps [.concat]) (Rule.getsOn_parser .sum)
  | summand => exact getsOn_operation (getsOn_symbolOps [.add, .sub]) (Rule.getsOn_parser .product)
  | factor =>
      exact getsOn_operation (getsOn_symbolOps [.mul, .div, .mod]) (Rule.getsOn_parser .unary)
  | first hitem => exact hitem.getsOn
  | next hitem =>
      exact getsOn_of_alike ((getsOn_char ',').alike.bind fun _ => hitem.getsOn.alike.leaveAlike)

/-!
## Templates
-/

theorem whole_ne_spent {p : Parser α} (h : GetsOn p) (cs : List Char) : whole p cs ≠ .spent := by
  have hends := h cs
  unfold whole
  cases hp : p cs with
  | accepted result rest => cases rest <;> exact nofun
  | rejected place => exact nofun
  | spent => exact absurd hp hends.ne_spent

theorem length_textSegments_le (raw : List Char) : (textSegments raw).length ≤ raw.length := by
  cases raw with
  | nil => exact Nat.le_refl _
  | cons c raw => exact Nat.succ_le_succ (Nat.zero_le _)

theorem Cuts.length_le {cs : List Char} {segments : List Segment} (h : Cuts cs segments) :
    segments.length ≤ cs.length := by
  induction h with
  | last _ => exact length_textSegments_le _
  | @tag front cs after tag segments _ htag _ ih =>
      have hfront := length_textSegments_le front
      have hshorter := htag.length_lt
      rw [List.length_append, List.length_append, List.length_cons]
      omega

theorem Segment.length_tokens_le (segment : Segment) : segment.tokens.length ≤ 1 := by
  cases segment with
  | text raw =>
      cases raw with
      | nil => exact Nat.zero_le 1
      | cons c raw => exact Nat.le_refl 1
  | tag tag =>
      rcases tag with ⟨kind, content, before, after⟩
      cases kind with
      | comment => exact Nat.zero_le 1
      | output | block => exact Nat.le_refl 1

theorem length_flatMap_tokens_le (segments : List Segment) :
    (segments.flatMap Segment.tokens).length ≤ segments.length := by
  induction segments with
  | nil => exact Nat.le_refl _
  | cons segment segments ih =>
      have hsegment := segment.length_tokens_le
      rw [List.flatMap_cons, List.length_append, List.length_cons]
      omega

theorem length_tokenize_le {source : List Char} {tokens : List Token}
    (h : tokenize source = .ok tokens) : tokens.length ≤ source.length := by
  obtain ⟨segments, hcuts, rfl⟩ := tokenize_eq_ok_iff.mp h
  calc ((settled segments).flatMap Segment.tokens).length
      ≤ (settled segments).length := length_flatMap_tokens_le _
    _ = segments.length := List.length_mapIdx
    _ ≤ source.length := hcuts.length_le

def Body.parseWithin? (template : String) (budget : Nat) (source : String) :
    Option (Except Error Body) :=
  match Scan.read budget source.toList with
  | .ok scan => build? template budget scan.tokens
  | .error fault => some (.error (.templateSyntax template fault))

theorem Body.parseWithin?_eq {budget : Nat} {source : String} (template : String)
    (hbudget : source.toList.length < budget) :
    parseWithin? template budget source = some (parse template source) := by
  unfold parseWithin? parse tokenize
  rw [Scan.read_eq_ofChars (Nat.le_of_lt hbudget)]
  cases hscan : Scan.ofChars source.toList with
  | error fault => rfl
  | ok scan =>
      have htokens : tokenize source.toList = .ok scan.tokens := by
        unfold tokenize
        rw [hscan]
      exact build?_eq template (Nat.lt_of_le_of_lt (length_tokenize_le htokens) hbudget)

/-- Every rule of the grammar and every parser of statements takes at least a character of what it
accepts, which leaves a proper end of the text, and so does every round of a repetition.  The rules
satisfy the equations of the grammar with no budget.  A rule is called inside itself only behind a
character, so calls nest at most as deep as there are ranks for each character and for the end, and
with calls as deep as that the rules read what they read.  What the tags of a template hold is read
to an end.  Its body is assembled from one token after the other, and built by descent in a step for
each token and one for the end, which are no more steps than the template has characters and one. -/
theorem parsing_ends :
    (∀ r : Rule, GetsOn r.parser) ∧
    (∀ p ∈ [Statement.statement, Statement.forStatement, Statement.setStatement,
      Statement.macroStatement], GetsOn p) ∧
    (∀ (α : Type) (p : Parser α), Round p → GetsOn p) ∧
    (∀ r : Rule, r.parser = Grammar.body Rule.parser r) ∧
    (∀ (r : Rule) (cs ds : List Char), Relation.TransGen Call.Makes ⟨r, cs⟩ ⟨r, ds⟩ →
      ds <:+ cs ∧ ds.length < cs.length) ∧
    (∀ (c : Call) (nested : List Call), List.IsChain Call.Makes (c :: nested) →
      (c :: nested).length ≤ Rule.ranks * (c.text.length + 1)) ∧
    (∀ (r : Rule) (cs : List Char) (depth : Nat), Rule.ranks * (cs.length + 1) ≤ depth →
      runWithin depth r cs = r.parser cs) ∧
    (∀ source : List Char, whole (spaced expression) source ≠ .spent ∧
      whole (do
        let result ← Statement.statement
        gap
        return result) source ≠ .spent) ∧
    (∀ (template : String) (a : Assembly) (tokens : List Token),
      a.tokens template tokens = tokens.foldlM (fun a t => a.token template t) a) ∧
    (∀ (template : String) (tokens : List Token) (budget : Nat), tokens.length < budget →
      Body.build? template budget tokens = some (Body.ofTokens template tokens)) ∧
    (∀ (template source : String) (budget : Nat), source.toList.length < budget →
      Body.parseWithin? template budget source = some (Body.parse template source)) := by
  refine ⟨Rule.getsOn_parser, ?_, fun α p h => h.getsOn, Rule.parser_eq,
    fun r cs ds h => Call.consumes_of_reentry h, ?_, ?_, ?_, Assembly.tokens_eq_foldlM,
    fun template tokens budget => Body.build?_eq template,
    fun template source budget => Body.parseWithin?_eq template⟩
  · intro p hp
    simp only [List.mem_cons, List.not_mem_nil, or_false] at hp
    rcases hp with rfl | rfl | rfl | rfl
    · exact Statement.getsOn_statement
    · exact Statement.getsOn_forStatement
    · exact Statement.getsOn_setStatement
    · exact Statement.getsOn_macroStatement
  · intro c nested h
    exact Nat.lt_of_le_of_lt (Call.length_le_weight h) c.weight_lt
  · intro r cs depth hdepth
    exact runWithin_eq ⟨r, cs⟩ (Nat.lt_of_lt_of_le (Call.weight_lt ⟨r, cs⟩) hdepth)
  · intro source
    refine ⟨whole_ne_spent CommaItem.element.getsOn source, whole_ne_spent ?_ source⟩
    exact getsOn_of_alike (Statement.getsOn_statement.alike.bind fun result =>
      leaveAlike_gap.bind (closedBehind_behind _) fun _ => leaveAlike_pure _)

/-- A negation inside another one is called behind the first `not`.  A tag with both is read in as
many steps as it has characters and one. -/
theorem double_negation_ends :
    Call.Makes ⟨.negation, "not not a".toList⟩ ⟨.negation, "not a".toList⟩ ∧
    "not a".toList <:+ "not not a".toList ∧
    "not a".toList.length < "not not a".toList.length ∧
    GetsOn (char ',' >>= fun _ => spaced expression) ∧
    runWithin 140 .negation "not not a".toList = negation expression "not not a".toList ∧
    Body.parseWithin? "double" 16 "\x7b\x7b not not a \x7d\x7d" =
      some (Body.parse "double" "\x7b\x7b not not a \x7d\x7d") := by
  have hmakes : Call.Makes ⟨.negation, "not not a".toList⟩ ⟨.negation, "not a".toList⟩ := rfl
  obtain ⟨-, -, hrounds, -, hreentry, -, hdepth, -, -, -, hparse⟩ := parsing_ends
  have hnested := hreentry .negation _ _ (.single hmakes)
  exact ⟨hmakes, hnested.left, hnested.right, hrounds _ _ (.next .element),
    hdepth .negation _ 140 (by decide), hparse _ _ 16 (by decide)⟩

end Template
end TransformChain
