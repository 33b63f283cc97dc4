import TransformChain.Template.Tree

/-!
# Bodies built by descent

The assembly of a body keeps the open blocks on a stack.  They can as well be the calls of a
builder that takes tokens up to a statement with one of the words it waits for: an `if` is built by
a call for each of its parts.  Both ways give the same bodies and the same errors.  Each step of the
builder takes a token, so a template with `n` tokens is built in `n` steps and one for its end.
-/

namespace TransformChain
namespace Template

inductive Built (α : Type) where
  | built (part : α) (left : List Token) (macros : List MacroDef)
  | failed (error : Error)
  | spent

def Built.andThen (outcome : Built α) (next : α → List Token → List MacroDef → Built β) :
    Built β :=
  match outcome with
  | .built part left macros => next part left macros
  | .failed error => .failed error
  | .spent => .spent

/-- Builds nodes behind those it is given, up to a statement with one of the words, which it takes
and gives with them, or up to the end if there are no words. -/
abbrev Builder := (stops : List String) → List Node → List Token → List MacroDef →
  Built (List Node × Option Statement)

namespace Builder

def branch (inner : Builder) :
    Nat → List (Expr × List Node) → Expr → List Token → List MacroDef → Built Node
  | 0, _, _, _, _ => .spent
  | budget + 1, done, condition, tokens, macros =>
      (inner ["elif", "else", "endif"] [] tokens macros).andThen fun part left macros =>
        let done := done ++ [(condition, part.1)]
        match part.2 with
        | some (.elifStart next) => branch inner budget done next left macros
        | some .elseStart =>
            (inner ["endif"] [] left macros).andThen fun otherwise left macros =>
              .built (.branch done otherwise.1) left macros
        | _ => .built (.branch done []) left macros

def loop (inner : Builder) (target : LoopTarget) (iterable : Expr) (tokens : List Token)
    (macros : List MacroDef) : Built Node :=
  (inner ["else", "endfor"] [] tokens macros).andThen fun body left macros =>
    match body.2 with
    | some .elseStart =>
        (inner ["endfor"] [] left macros).andThen fun otherwise left macros =>
          .built (.loop target iterable body.1 otherwise.1) left macros
    | _ => .built (.loop target iterable body.1 []) left macros

def definition (template : String) (inner : Builder) (name : String)
    (params : List MacroParameter) (tokens : List Token) (macros : List MacroDef) : Built Unit :=
  (inner ["endmacro"] [] tokens macros).andThen fun body left macros =>
    if macros.any (fun m => m.name == name) then
      .failed (.templateSyntax template (.repeatedMacro name))
    else
      .built () left (macros ++ [⟨name, params, body.1⟩])

/-- The nodes with a statement behind them: one with one of the words ends them, one that opens a
block or gives a node goes on, and any other is out of place. -/
def statement (template : String) (inner : Builder) (budget : Nat) (stops : List String)
    (nodes : List Node) (s : Statement) (tokens : List Token) (macros : List MacroDef) :
    Built (List Node × Option Statement) :=
  if stops.contains s.word then
    .built (nodes, some s) tokens macros
  else
    match s with
    | .ifStart condition =>
        (branch inner budget [] condition tokens macros).andThen fun node =>
          inner stops (nodes ++ [node])
    | .forStart target iterable =>
        (loop inner target iterable tokens macros).andThen fun node =>
          inner stops (nodes ++ [node])
    | .assign name value => inner stops (nodes ++ [.assign name value]) tokens macros
    | .run expr => inner stops (nodes ++ [.run expr]) tokens macros
    | .macroStart name params =>
        (definition template inner name params tokens macros).andThen fun _ => inner stops nodes
    | other => .failed (.templateSyntax template (.unexpectedBlock other.word))

def within (template : String) : Nat → Builder
  | 0 => fun _ _ _ _ => .spent
  | budget + 1 => fun stops nodes tokens macros =>
      let inner := within template budget
      match tokens with
      | [] =>
          match stops with
          | [] => .built (nodes, none) [] macros
          | expected :: _ => .failed (.templateSyntax template (.unexpectedEnd expected))
      | .text content :: rest => inner stops (nodes ++ [.text (String.ofList content)]) rest macros
      | .output source :: rest =>
          match Expr.parse template source with
          | .ok expr => inner stops (nodes ++ [.output expr]) rest macros
          | .error e => .failed e
      | .block source :: rest =>
          match Statement.parse template source with
          | .ok s => statement template inner budget stops nodes s rest macros
          | .error e => .failed e

end Builder

def Body.build? (template : String) (budget : Nat) (tokens : List Token) :
    Option (Except Error Body) :=
  match Builder.within template budget [] [] tokens [] with
  | .built part _ macros => some (.ok ⟨part.1, macros⟩)
  | .failed e => some (.error e)
  | .spent => none

/-!
## The assembly from any point on
-/

def OpenBlock.stops : OpenBlock → List String
  | branch _ _ => ["elif", "else", "endif"]
  | otherwise _ => ["endif"]
  | loop _ _ => ["else", "endfor"]
  | loopElse _ _ _ => ["endfor"]
  | macroBody _ _ => ["endmacro"]

namespace Assembly

def stops (a : Assembly) : List String :=
  match a.enclosing with
  | [] => []
  | (block, _) :: _ => block.stops

def complete (template : String) (a : Assembly) (tokens : List Token) : Except Error Body :=
  match a.tokens template tokens with
  | .error e => .error e
  | .ok last =>
      match last.finish with
      | .ok body => .ok body
      | .error fault => .error (.templateSyntax template fault)

def completeFrom (template : String) (a : Assembly) (s : Statement) (tokens : List Token) :
    Except Error Body :=
  match a.ending s with
  | .ok next => next.complete template tokens
  | .error fault => .error (.templateSyntax template fault)

variable {template : String} {a next : Assembly} {t : Token} {tokens : List Token}

theorem tokens_eq_foldlM (template : String) (a : Assembly) (tokens : List Token) :
    a.tokens template tokens = tokens.foldlM (fun a t => a.token template t) a := by
  induction tokens generalizing a with
  | nil => rfl
  | cons t rest ih =>
      rw [List.foldlM_cons, Assembly.tokens]
      cases a.token template t with
      | ok next => exact ih next
      | error e => rfl

theorem complete_cons (h : a.token template t = .ok next) :
    a.complete template (t :: tokens) = next.complete template tokens := by
  simp only [complete, Assembly.tokens, h]

theorem complete_cons_error {e : Error} (h : a.token template t = .error e) :
    a.complete template (t :: tokens) = .error e := by
  simp only [complete, Assembly.tokens, h]

theorem enclosing_eq_nil (h : a.stops = []) : a.enclosing = [] := by
  rcases a with ⟨nodes, enclosing, macros⟩
  cases enclosing with
  | nil => rfl
  | cons block outer =>
      rcases block with ⟨block, before⟩
      cases block <;> cases h

theorem complete_nil (h : a.enclosing = []) :
    a.complete template [] = .ok ⟨a.nodes, a.macros⟩ := by
  simp only [complete, Assembly.tokens, finish, h]

theorem complete_nil_error {expected : String} {others : List String}
    (h : a.stops = expected :: others) :
    a.complete template [] = .error (.templateSyntax template (.unexpectedEnd expected)) := by
  rcases a with ⟨nodes, enclosing, macros⟩
  cases enclosing with
  | nil => cases h
  | cons block outer =>
      rcases block with ⟨block, before⟩
      cases block <;> cases h <;> rfl

theorem statement_eq_ending {s : Statement} (h : a.stops.contains s.word = true) :
    a.statement s = a.ending s := by
  rcases a with ⟨nodes, enclosing, macros⟩
  cases enclosing with
  | nil => cases h
  | cons block outer =>
      rcases block with ⟨block, before⟩
      cases block <;> cases s <;>
        first
          | rfl
          | simp [stops, OpenBlock.stops, Statement.word] at h

theorem ending_eq_error {s : Statement} (h : a.stops.contains s.word = false) :
    a.ending s = .error (.unexpectedBlock s.word) := by
  rcases a with ⟨nodes, enclosing, macros⟩
  cases enclosing with
  | nil => rfl
  | cons block outer =>
      rcases block with ⟨block, before⟩
      cases block <;> cases s <;>
        first
          | rfl
          | simp [stops, OpenBlock.stops, Statement.word] at h

end Assembly

/-!
## Descent and assembly agree
-/

/-- The builder fails as the assembly does, or it builds a part behind which this holds. -/
def Built.Gives (whole : Except Error Body) (behind : α → List Token → List MacroDef → Prop) :
    Built α → Prop
  | .built part left macros => behind part left macros
  | .failed e => whole = .error e
  | .spent => False

theorem Built.Gives.andThen {whole : Except Error Body} {outcome : Built α}
    {next : α → List Token → List MacroDef → Built β}
    {behind : α → List Token → List MacroDef → Prop}
    {behind' : β → List Token → List MacroDef → Prop} (h : outcome.Gives whole behind)
    (hnext : ∀ part left macros, behind part left macros →
      (next part left macros).Gives whole behind') :
    (outcome.andThen next).Gives whole behind' := by
  cases outcome with
  | built part left macros => exact hnext part left macros h
  | failed e => exact h
  | spent => exact h.elim

theorem Built.Gives.mono {whole : Except Error Body} {outcome : Built α}
    {behind behind' : α → List Token → List MacroDef → Prop} (h : outcome.Gives whole behind)
    (hbehind : ∀ part left macros, behind part left macros → behind' part left macros) :
    outcome.Gives whole behind' := by
  cases outcome with
  | built part left macros => exact hbehind part left macros h
  | failed e => exact h
  | spent => exact h.elim

section Agreement

variable {template : String} {a b : Assembly} {tokens left : List Token} {inner : Builder}
  {n : Nat}

/-- Nodes are built up to a statement at which the assembly has the same nodes, or up to the end,
where it has the same body. -/
def NodesAgree (template : String) (a : Assembly) (tokens : List Token) :
    Built (List Node × Option Statement) → Prop :=
  Built.Gives (a.complete template tokens) fun part left macros =>
    match part.2 with
    | none => a.enclosing = [] ∧ a.complete template tokens = .ok ⟨part.1, macros⟩
    | some s =>
        left.length < tokens.length ∧ a.stops.contains s.word = true ∧
          a.complete template tokens =
            (⟨part.1, a.enclosing, macros⟩ : Assembly).completeFrom template s left

def PartAgrees (template : String) (a : Assembly) (tokens : List Token)
    (closed : α → List MacroDef → Assembly) : Built α → Prop :=
  Built.Gives (a.complete template tokens) fun part left macros =>
    left.length < tokens.length ∧
      a.complete template tokens = (closed part macros).complete template left

theorem NodesAgree.of_eq {outcome : Built (List Node × Option Statement)}
    (h : NodesAgree template b left outcome)
    (heq : a.complete template tokens = b.complete template left)
    (hsame : b.enclosing = a.enclosing) (hle : left.length ≤ tokens.length) :
    NodesAgree template a tokens outcome := by
  unfold NodesAgree Assembly.stops at *
  rw [heq]
  rw [hsame] at h
  refine h.mono fun part later macros hpart => ?_
  rcases part with ⟨nodes, _ | s⟩
  · exact hpart
  · exact ⟨Nat.lt_of_lt_of_le hpart.left hle, hpart.right⟩

theorem PartAgrees.of_eq {outcome : Built α} {closed : α → List MacroDef → Assembly}
    (h : PartAgrees template b left closed outcome)
    (heq : a.complete template tokens = b.complete template left)
    (hle : left.length ≤ tokens.length) : PartAgrees template a tokens closed outcome := by
  unfold PartAgrees at *
  rw [heq]
  exact h.mono fun part later macros hpart => ⟨Nat.lt_of_lt_of_le hpart.left hle, hpart.right⟩

def AgreesBelow (template : String) (n : Nat) (inner : Builder) : Prop :=
  ∀ (a : Assembly) (tokens : List Token), tokens.length < n →
    NodesAgree template a tokens (inner a.stops a.nodes tokens a.macros)

theorem NodesAgree.partAgrees {outcome : Built (List Node × Option Statement)}
    {next : List Node × Option Statement → List Token → List MacroDef → Built α}
    {closed : α → List MacroDef → Assembly} (h : NodesAgree template a tokens outcome)
    (hopen : a.enclosing ≠ [])
    (hnext : ∀ nodes s left macros, left.length < tokens.length →
      a.stops.contains s.word = true →
      a.complete template tokens =
        (⟨nodes, a.enclosing, macros⟩ : Assembly).completeFrom template s left →
      PartAgrees template a tokens closed (next (nodes, some s) left macros)) :
    PartAgrees template a tokens closed (outcome.andThen next) := by
  refine h.andThen fun part left macros hpart => ?_
  rcases part with ⟨nodes, _ | s⟩
  · exact absurd hpart.left hopen
  · exact hnext nodes s left macros hpart.left hpart.right.left hpart.right.right

theorem branch_agrees (hinner : AgreesBelow template n inner) {budget : Nat}
    (done : List (Expr × List Node)) (condition : Expr) (before : List Node)
    (outer : List (OpenBlock × List Node)) (macros : List MacroDef) (hn : tokens.length < n)
    (hbudget : tokens.length < budget) :
    PartAgrees template ⟨[], (.branch done condition, before) :: outer, macros⟩ tokens
      (fun node macros => ⟨before ++ [node], outer, macros⟩)
      (Builder.branch inner budget done condition tokens macros) := by
  induction budget generalizing done condition tokens macros with
  | zero => exact absurd hbudget (Nat.not_lt_zero _)
  | succ budget ih =>
      refine (hinner ⟨[], (.branch done condition, before) :: outer, macros⟩ tokens hn).partAgrees
        (List.cons_ne_nil _ _) fun nodes s left macros hshorter hword hwhole => ?_
      have hleft : left.length < n := Nat.lt_trans hshorter hn
      cases s with
      | elifStart next =>
          exact (ih _ next macros hleft (by omega)).of_eq hwhole (Nat.le_of_lt hshorter)
      | elseStart =>
          refine PartAgrees.of_eq (b := ⟨[], (.otherwise (done ++ [(condition, nodes)]), before)
            :: outer, macros⟩) ?_ hwhole (Nat.le_of_lt hshorter)
          refine (hinner _ left hleft).partAgrees (List.cons_ne_nil _ _)
            fun otherwise s later macros hshorter hword hwhole => ?_
          cases s with
          | ifEnd => exact ⟨hshorter, hwhole⟩
          | _ => cases hword
      | ifEnd => exact ⟨hshorter, hwhole⟩
      | _ => cases hword

theorem loop_agrees (hinner : AgreesBelow template n inner) (target : LoopTarget) (iterable : Expr)
    (before : List Node) (outer : List (OpenBlock × List Node)) (macros : List MacroDef)
    (hn : tokens.length < n) :
    PartAgrees template ⟨[], (.loop target iterable, before) :: outer, macros⟩ tokens
      (fun node macros => ⟨before ++ [node], outer, macros⟩)
      (Builder.loop inner target iterable tokens macros) := by
  refine (hinner ⟨[], (.loop target iterable, before) :: outer, macros⟩ tokens hn).partAgrees
    (List.cons_ne_nil _ _) fun nodes s left macros hshorter hword hwhole => ?_
  cases s with
  | elseStart =>
      refine PartAgrees.of_eq (b := ⟨[], (.loopElse target iterable nodes, before) :: outer,
        macros⟩) ?_ hwhole (Nat.le_of_lt hshorter)
      refine (hinner _ left (Nat.lt_trans hshorter hn)).partAgrees (List.cons_ne_nil _ _)
        fun otherwise s later macros hshorter hword hwhole => ?_
      cases s with
      | forEnd => exact ⟨hshorter, hwhole⟩
      | _ => cases hword
  | forEnd => exact ⟨hshorter, hwhole⟩
  | _ => cases hword

theorem definition_agrees (hinner : AgreesBelow template n inner) (name : String)
    (params : List MacroParameter) (before : List Node)
    (outer : List (OpenBlock × List Node)) (macros : List MacroDef) (hn : tokens.length < n) :
    PartAgrees template ⟨[], (.macroBody name params, before) :: outer, macros⟩ tokens
      (fun _ macros => ⟨before, outer, macros⟩)
      (Builder.definition template inner name params tokens macros) := by
  refine (hinner ⟨[], (.macroBody name params, before) :: outer, macros⟩ tokens hn).partAgrees
    (List.cons_ne_nil _ _) fun nodes s left macros hshorter hword hwhole => ?_
  cases s with
  | macroEnd =>
      unfold Assembly.completeFrom Assembly.ending Assembly.hasMacro at hwhole
      dsimp only at hwhole ⊢
      cases hrepeated : macros.any fun m => m.name == name with
      | true =>
          rw [hrepeated] at hwhole
          exact hwhole
      | false =>
          rw [hrepeated] at hwhole
          exact ⟨hshorter, hwhole⟩
  | _ => cases hword

theorem NodesAgree.step {t : Token} {outcome : Built (List Node × Option Statement)}
    (htoken : a.token template t = .ok b) (hsame : b.enclosing = a.enclosing)
    (h : NodesAgree template b tokens outcome) : NodesAgree template a (t :: tokens) outcome :=
  h.of_eq (Assembly.complete_cons htoken) hsame (Nat.le_succ _)

theorem PartAgrees.nodesAgree {t : Token} {outcome : Built α}
    {closed : α → List MacroDef → Assembly}
    {next : α → List Token → List MacroDef → Built (List Node × Option Statement)}
    (htoken : a.token template t = .ok b) (h : PartAgrees template b tokens closed outcome)
    (hclosed : ∀ part macros, (closed part macros).enclosing = a.enclosing)
    (hnext : ∀ part left macros, left.length < tokens.length →
      NodesAgree template (closed part macros) left (next part left macros)) :
    NodesAgree template a (t :: tokens) (outcome.andThen next) := by
  have hwhole : a.complete template (t :: tokens) = b.complete template tokens :=
    Assembly.complete_cons htoken
  unfold NodesAgree
  rw [hwhole]
  refine h.andThen fun part left macros hpart => ?_
  rw [← hwhole]
  exact (hnext part left macros hpart.left).of_eq (hwhole.trans hpart.right) (hclosed part macros)
    (Nat.le_of_lt (Nat.lt_succ_of_lt hpart.left))

theorem statement_agrees {t : Token} {s : Statement} {budget : Nat}
    (hinner : AgreesBelow template n inner) (hn : tokens.length < n)
    (hbudget : tokens.length < budget)
    (htoken : a.token template t = (a.statement s).mapError (.templateSyntax template)) :
    NodesAgree template a (t :: tokens)
      (Builder.statement template inner budget a.stops a.nodes s tokens a.macros) := by
  unfold Builder.statement
  cases hends : a.stops.contains s.word with
  | true =>
      refine ⟨Nat.lt_succ_self _, hends, ?_⟩
      rw [Assembly.statement_eq_ending hends] at htoken
      change a.complete template (t :: tokens) = a.completeFrom template s tokens
      unfold Assembly.completeFrom
      cases hnext : a.ending s with
      | ok next => exact Assembly.complete_cons (htoken.trans (by rw [hnext]; rfl))
      | error fault => exact Assembly.complete_cons_error (htoken.trans (by rw [hnext]; rfl))
  | false =>
      rw [if_neg (by simp)]
      have hplain : ∀ node, a.token template t = .ok (a.add node) →
          NodesAgree template a (t :: tokens)
            (inner a.stops (a.nodes ++ [node]) tokens a.macros) :=
        fun node htoken => .step htoken rfl (hinner (a.add node) tokens hn)
      cases s with
      | ifStart condition =>
          refine (branch_agrees hinner [] condition a.nodes a.enclosing a.macros hn
            hbudget).nodesAgree htoken (fun _ _ => rfl) fun node left macros hshorter => ?_
          exact hinner ⟨a.nodes ++ [node], a.enclosing, macros⟩ left (Nat.lt_trans hshorter hn)
      | forStart target iterable =>
          refine (loop_agrees hinner target iterable a.nodes a.enclosing a.macros hn).nodesAgree
            htoken (fun _ _ => rfl) fun node left macros hshorter => ?_
          exact hinner ⟨a.nodes ++ [node], a.enclosing, macros⟩ left (Nat.lt_trans hshorter hn)
      | macroStart name params =>
          refine (definition_agrees hinner name params a.nodes a.enclosing a.macros hn).nodesAgree
            htoken (fun _ _ => rfl) fun _ left macros hshorter => ?_
          exact hinner ⟨a.nodes, a.enclosing, macros⟩ left (Nat.lt_trans hshorter hn)
      | assign name value => exact hplain _ htoken
      | run expr => exact hplain _ htoken
      | elifStart | elseStart | ifEnd | forEnd | macroEnd =>
          refine Assembly.complete_cons_error (htoken.trans ?_)
          change (a.ending _).mapError _ = _
          rw [Assembly.ending_eq_error hends]
          rfl

/-- With a step for each token and one for the end the builder agrees with the assembly. -/
theorem within_agrees (template : String) (n : Nat) :
    AgreesBelow template n (Builder.within template n) := by
  induction n with
  | zero => exact fun a tokens h => absurd h (Nat.not_lt_zero _)
  | succ n ih =>
      intro a tokens hn
      cases tokens with
      | nil =>
          change NodesAgree template a [] (match a.stops with
            | [] => .built (a.nodes, none) [] a.macros
            | expected :: _ => .failed (.templateSyntax template (.unexpectedEnd expected)))
          cases hstops : a.stops with
          | nil =>
              have henclosing := Assembly.enclosing_eq_nil hstops
              exact ⟨henclosing, Assembly.complete_nil henclosing⟩
          | cons expected others => exact Assembly.complete_nil_error hstops
      | cons t rest =>
          have hrest : rest.length < n := Nat.lt_of_succ_lt_succ hn
          cases t with
          | text content =>
              exact .step (b := a.add (.text (String.ofList content))) rfl rfl (ih _ rest hrest)
          | output source =>
              unfold Builder.within
              dsimp only
              cases h : Expr.parse template source with
              | ok expr =>
                  have htoken : a.token template (.output source) = .ok (a.add (.output expr)) := by
                    simp only [Assembly.token, h]
                  exact .step htoken rfl (ih _ rest hrest)
              | error e => exact Assembly.complete_cons_error (by simp only [Assembly.token, h])
          | block source =>
              unfold Builder.within
              dsimp only
              cases h : Statement.parse template source with
              | ok s =>
                  refine statement_agrees ih hrest hrest ?_
                  simp only [Assembly.token, h]
                  cases a.statement s <;> rfl
              | error e => exact Assembly.complete_cons_error (by simp only [Assembly.token, h])

end Agreement

theorem Body.build?_eq {budget : Nat} {tokens : List Token} (template : String)
    (hbudget : tokens.length < budget) :
    Body.build? template budget tokens = some (Body.ofTokens template tokens) := by
  have h : NodesAgree template Assembly.empty tokens (Builder.within template budget [] [] tokens
    []) := within_agrees template budget Assembly.empty tokens hbudget
  change _ = some (Assembly.empty.complete template tokens)
  unfold Body.build?
  cases hbuilt : Builder.within template budget [] [] tokens [] with
  | built part left macros =>
      rw [hbuilt] at h
      rcases part with ⟨nodes, _ | s⟩
      · exact congrArg some h.right.symm
      · cases h.right.left
  | failed e =>
      rw [hbuilt] at h
      exact congrArg some (Eq.symm h)
  | spent =>
      rw [hbuilt] at h
      exact h.elim

end Template
end TransformChain
