import TransformChain.Proofs.Template.TagScanning
import TransformChain.Template.Tree

/-!
# Reading printed templates

A template is written piece by piece: texts as they are, outputs and statements as tags, and a line
feed behind each statement.  The scanner finds the pieces again, the parsers of expressions and
statements read them, and the assembly closes each block with the statement written to close it.
-/

namespace TransformChain
namespace Template

open Text Grammar

/-!
## Pieces
-/

inductive Piece where
  | text (content : String)
  | output (expr : Expr)
  | block (statement : Statement)

namespace Piece

def isText : Piece → Bool
  | text _ => true
  | _ => false

def isWritable : Piece → Bool
  | text content => isCleanText content.toList
  | output expr => expr.isWritable
  | block statement => statement.isWritable

/-- The piece with one space in front of each lexeme and at the end of a tag. -/
def print : Piece → List Char
  | text content => content.toList
  | output expr => TagKind.output.tagText (spread expr.bare ++ [' '])
  | block statement => TagKind.block.tagText (spread statement.lexemes ++ [' ']) ++ ['\n']

end Piece

inductive Writes : List Piece → List Char → Prop where
  | nil : Writes [] []
  | text {content : String} {ps : List Piece} {cs : List Char} :
      Writes ps cs → Writes (.text content :: ps) (content.toList ++ cs)
  | output {expr : Expr} {ps : List Piece} {inside cs : List Char} :
      WritesTag expr.bare inside → Writes ps cs →
      Writes (.output expr :: ps) (TagKind.output.tagText inside ++ cs)
  | block {statement : Statement} {ps : List Piece} {inside cs : List Char} :
      WritesTag statement.lexemes inside → Writes ps cs →
      Writes (.block statement :: ps) (TagKind.block.tagText inside ++ '\n' :: cs)

def beginsWithText (ps : List Piece) : Bool :=
  ps.head?.any Piece.isText

def Fit : List Piece → Prop
  | [] => True
  | p :: ps => p.isWritable = true ∧ (p.isText = true → beginsWithText ps = false) ∧ Fit ps

theorem writes_print (ps : List Piece) : Writes ps (ps.flatMap Piece.print) := by
  induction ps with
  | nil => exact .nil
  | cons p ps ih =>
      rw [List.flatMap_cons]
      cases p with
      | text content => exact .text ih
      | output expr => exact .output (writesTag_spread _) ih
      | block statement =>
          rw [Piece.print, List.append_assoc]
          exact .block (writesTag_spread _) ih

/-!
## Tokens
-/

inductive Tells (template : String) : Piece → Token → Prop where
  | text {content : String} : Tells template (.text content) (.text content.toList)
  | output {expr : Expr} {source : List Char} : Expr.parse template source = .ok expr →
      Tells template (.output expr) (.output source)
  | block {statement : Statement} {source : List Char} :
      Statement.parse template source = .ok statement →
      Tells template (.block statement) (.block source)

theorem WritesTag.expr_parse (template : String) {e : Expr} {inside : List Char}
    (h : WritesTag e.bare inside) (he : e.isWritable = true) :
    Expr.parse template inside = .ok e := by
  rcases h.ends with ⟨space, _, hspace, hspells⟩
  exact Expr.parse_of_spells template he hspells.spells hspace

theorem WritesTag.statement_parse (template : String) {s : Statement} {inside : List Char}
    (h : WritesTag s.lexemes inside) (hs : s.isWritable = true) :
    Statement.parse template inside = .ok s := by
  rcases h.ends with ⟨space, _, hspace, hspells⟩
  exact Statement.parse_of_spells template hs hspells.spells hspace

theorem readTags_tagText {kind : TagKind} {ls : List Lexeme} {inside after text later : List Char}
    {budget : Nat} {tail : List (Tag × List Char)} (hkind : kind ≠ .comment)
    (h : WritesTag ls inside) (htame : Tame ls) (hafter : breakAtTag after = (text, later))
    (htail : readTags budget later = .ok tail) :
    readTags (budget + 1) (kind.tagText inside ++ after)
      = .ok ((⟨kind, inside, false, false⟩, text) :: tail) := by
  have hbody : kind.tagText inside ++ after
      = '\x7b' :: kind.opener :: (inside ++ kind.closer :: '\x7d' :: after) := by
    simp [TagKind.tagText]
  have hopener := kind.ofOpener?_opener
  rw [hbody, readTags, hopener]
  simp only [h.readTag_eq hkind htame after, hafter, htail]

def Untrimmed (tail : List (Tag × List Char)) : Prop :=
  ∀ part ∈ tail, part.1.trimBefore = false

theorem tokensFrom_text {text : List Char} {tail : List (Tag × List Char)} (htext : text ≠ [])
    (htail : Untrimmed tail) :
    Scan.tokensFrom text tail = .text text :: Scan.tokensFrom [] tail := by
  have htokens : textTokens text = [.text text] := by
    unfold textTokens
    rw [if_neg (by simpa using htext)]
  cases tail with
  | nil => exact htokens
  | cons part tail =>
      rcases part with ⟨tag, next⟩
      have htag : tag.trimBefore = false := htail (tag, next) List.mem_cons_self
      have hsame : ∀ cs, trimBeforeTag tag cs = cs := fun cs => by
        unfold trimBeforeTag
        rw [htag]
        rfl
      unfold Scan.tokensFrom
      rw [hsame, hsame, htokens]
      rfl

theorem tokensFrom_tag {kind : TagKind} {inside text : List Char}
    {tail : List (Tag × List Char)} :
    Scan.tokensFrom [] ((⟨kind, inside, false, false⟩, text) :: tail) =
      (⟨kind, inside, false, false⟩ : Tag).tokens ++
        Scan.tokensFrom (if kind = .output then text else dropLineEnd text) tail := by
  cases kind <;> rfl

/-- Cutting a text at its tags from `later` on, with `head` in front, gives a token for each
piece. -/
def Scans (template : String) (ps : List Piece) (head later : List Char) (size : Nat) : Prop :=
  ∀ budget, size ≤ budget → ∃ tail, readTags budget later = .ok tail ∧ Untrimmed tail ∧
    List.Forall₂ (Tells template) ps (Scan.tokensFrom head tail)

variable {template : String} {ps : List Piece} {cs : List Char}

theorem scans_text {content : String} {later : List Char} {size : Nat}
    (hclean : isCleanText content.toList = true) (h : Scans template ps [] later size) :
    Scans template (.text content :: ps) content.toList later size := by
  intro budget hbudget
  rcases h budget hbudget with ⟨tail, htail, huntrimmed, htokens⟩
  have hne : content.toList ≠ [] := by
    intro heq
    simp [heq, isCleanText] at hclean
  refine ⟨tail, htail, huntrimmed, ?_⟩
  rw [tokensFrom_text hne huntrimmed]
  exact .cons .text htokens

theorem scans_tag {kind : TagKind} {ls : List Lexeme} {inside after text later : List Char}
    {p : Piece} {token : Token} (hkind : kind ≠ .comment) (htag : WritesTag ls inside)
    (htame : Tame ls) (hafter : breakAtTag after = (text, later))
    (htoken : (⟨kind, inside, false, false⟩ : Tag).tokens = [token])
    (hp : Tells template p token)
    (h : Scans template ps (if kind = .output then text else dropLineEnd text) later
      after.length) :
    Scans template (p :: ps) [] (kind.tagText inside ++ after)
      (kind.tagText inside ++ after).length := by
  intro budget hbudget
  have hlength : after.length + 1 ≤ (kind.tagText inside ++ after).length := by
    simp only [TagKind.tagText, List.cons_append, List.length_cons, List.length_append]
    omega
  obtain ⟨budget, rfl⟩ : ∃ n, budget = n + 1 := ⟨budget - 1, by omega⟩
  rcases h budget (by omega) with ⟨tail, htail, huntrimmed, htokens⟩
  refine ⟨_, readTags_tagText hkind htag htame hafter htail,
    List.forall_mem_cons.mpr ⟨rfl, huntrimmed⟩, ?_⟩
  rw [tokensFrom_tag, htoken]
  exact .cons hp htokens

theorem scans_of_writes (h : Writes ps cs) (hfit : Fit ps) :
    ∃ head later, breakAtTag cs = (head, later) ∧ (beginsWithText ps = false → head = []) ∧
      Scans template ps head later cs.length := by
  induction h with
  | nil =>
      refine ⟨[], [], rfl, fun _ => rfl, fun budget _ => ⟨[], ?_, ?_, .nil⟩⟩
      · cases budget <;> rfl
      · exact fun _ hpart => absurd hpart List.not_mem_nil
  | @text content ps cs _ ih =>
      obtain ⟨hclean, hnext, hps⟩ := hfit
      rcases ih hps with ⟨head, later, hbreak, hhead, hread⟩
      have hnil : head = [] := hhead (hnext rfl)
      subst hnil
      refine ⟨content.toList, later, ?_, fun h => absurd h (by simp [beginsWithText, Piece.isText]),
        fun budget hbudget => scans_text hclean hread budget ?_⟩
      · rw [breakAtTag_clean hclean, hbreak, List.append_nil]
      · rw [List.length_append] at hbudget
        omega
  | @output expr ps inside cs htag _ ih =>
      obtain ⟨hexpr, _, hps⟩ := hfit
      rcases ih hps with ⟨head, later, hbreak, _, hread⟩
      exact ⟨[], _, breakAtTag_tagText _ _ _, fun _ => rfl,
        scans_tag (by decide) htag (tame_bare expr hexpr) hbreak rfl
          (.output (htag.expr_parse template hexpr)) hread⟩
  | @block statement ps inside cs htag _ ih =>
      obtain ⟨hstatement, _, hps⟩ := hfit
      rcases ih hps with ⟨head, later, hbreak, _, hread⟩
      have hline : breakAtTag ('\n' :: cs) = ('\n' :: head, later) := by
        rw [breakAtTag_cons (by decide), hbreak]
      exact ⟨[], _, breakAtTag_tagText _ _ _, fun _ => rfl,
        scans_tag (by decide) htag (tame_statement hstatement) hline rfl
          (.block (htag.statement_parse template hstatement))
          fun budget hbudget => hread budget (Nat.le_of_succ_le hbudget)⟩

theorem tokenize_of_scans {head later : List Char} (hbreak : breakAtTag cs = (head, later))
    (h : Scans template ps head later cs.length) :
    ∃ tokens, tokenize cs = .ok tokens ∧ List.Forall₂ (Tells template) ps tokens := by
  rcases h cs.length (Nat.le_refl _) with ⟨tail, htail, _, htokens⟩
  refine ⟨Scan.tokensFrom head tail, ?_, htokens⟩
  unfold tokenize Scan.ofChars
  simp only [hbreak, htail, Scan.tokens]

theorem tokenize_of_writes (template : String) (h : Writes ps cs) (hfit : Fit ps) :
    ∃ tokens, tokenize cs = .ok tokens ∧ List.Forall₂ (Tells template) ps tokens := by
  rcases scans_of_writes h hfit with ⟨head, later, hbreak, _, hread⟩
  exact tokenize_of_scans hbreak hread

/-!
## Nodes
-/

def elsePieces : List Node → List Piece → List Piece
  | [], _ => []
  | _ :: _, ps => .block .elseStart :: ps

mutual

def Node.pieces : Node → List Piece
  | .text content => [.text content]
  | .output expr => [.output expr]
  | .branch [] _ => []
  | .branch ((condition, body) :: branches) otherwise =>
      .block (.ifStart condition) :: (nodesPieces body ++ (elifPieces branches ++
        (elsePieces otherwise (nodesPieces otherwise) ++ [.block .ifEnd])))
  | .loop target iterable body empty =>
      .block (.forStart target iterable) :: (nodesPieces body ++
        (elsePieces empty (nodesPieces empty) ++ [.block .forEnd]))
  | .assign name value => [.block (.assign name value)]
  | .run expr => [.block (.run expr)]

def nodesPieces : List Node → List Piece
  | [] => []
  | node :: rest => node.pieces ++ nodesPieces rest

def elifPieces : List (Expr × List Node) → List Piece
  | [] => []
  | (condition, body) :: branches =>
      .block (.elifStart condition) :: (nodesPieces body ++ elifPieces branches)

end

def MacroDef.pieces (m : MacroDef) : List Piece :=
  .block (.macroStart m.name m.params) :: (nodesPieces m.body ++ [.block .macroEnd])

def Body.pieces (body : Body) : List Piece :=
  body.macros.flatMap MacroDef.pieces ++ nodesPieces body.nodes

def Body.print (body : Body) : String :=
  String.ofList (body.pieces.flatMap Piece.print)

def Node.isText : Node → Bool
  | .text _ => true
  | _ => false

mutual

/-- Texts begin no tag, names are those of variables, expressions can be written, and an `if` has a
branch. -/
def Node.isWritable : Node → Bool
  | .text content => isCleanText content.toList
  | .output expr => expr.isWritable
  | .branch [] _ => false
  | .branch ((condition, body) :: branches) otherwise =>
      condition.isWritable && nodesAreWritable body && branchesAreWritable branches &&
        nodesAreWritable otherwise
  | .loop target iterable body empty =>
      target.names.all isVariableName && iterable.isWritable && nodesAreWritable body &&
        nodesAreWritable empty
  | .assign name value => isVariableName name && value.isWritable
  | .run expr => expr.isWritable

def nodesAreWritable : List Node → Bool
  | [] => true
  | node :: rest =>
      node.isWritable && !(node.isText && rest.head?.any Node.isText) && nodesAreWritable rest

def branchesAreWritable : List (Expr × List Node) → Bool
  | [] => true
  | (condition, body) :: branches =>
      condition.isWritable && nodesAreWritable body && branchesAreWritable branches

end

def MacroDef.isWritable (m : MacroDef) : Bool :=
  isVariableName m.name && m.params.all parameterIsWritable && nodesAreWritable m.body

def Body.isWritable (body : Body) : Bool :=
  body.macros.all MacroDef.isWritable && decide (body.macros.map MacroDef.name).Nodup &&
    nodesAreWritable body.nodes

/-!
## The pieces of nodes fit
-/

section Fit

variable {tail : List Piece}

theorem fit_block {s : Statement} (hs : s.isWritable = true) (h : Fit ps) :
    Fit (.block s :: ps) :=
  ⟨hs, fun htext => absurd htext Bool.false_ne_true, h⟩

theorem beginsWithText_elsePieces (otherwise : List Node) (htail : beginsWithText tail = false) :
    beginsWithText (elsePieces otherwise ps ++ tail) = false := by
  cases otherwise with
  | nil => exact htail
  | cons node rest => rfl

theorem fit_elsePieces (otherwise : List Node) (htail : Fit tail) (h : Fit (ps ++ tail)) :
    Fit (elsePieces otherwise ps ++ tail) := by
  cases otherwise with
  | nil => exact htail
  | cons node rest => exact fit_block rfl h

theorem beginsWithText_elifPieces (branches : List (Expr × List Node))
    (htail : beginsWithText tail = false) :
    beginsWithText (elifPieces branches ++ tail) = false := by
  cases branches with
  | nil => exact htail
  | cons branch branches => rfl

theorem beginsWithText_node {node : Node} (h : node.isWritable = true) :
    beginsWithText (node.pieces ++ tail) = node.isText := by
  cases node with
  | branch branches otherwise =>
      cases branches with
      | nil => cases h
      | cons branch branches => rfl
  | _ => rfl

theorem beginsWithText_nodes {nodes : List Node} (h : nodesAreWritable nodes = true)
    (htail : beginsWithText tail = false) :
    beginsWithText (nodesPieces nodes ++ tail) = nodes.head?.any Node.isText := by
  cases nodes with
  | nil => exact htail
  | cons node rest =>
      simp only [nodesAreWritable, Bool.and_eq_true] at h
      rw [nodesPieces, List.append_assoc]
      exact beginsWithText_node h.left.left

mutual

theorem fit_node : ∀ (node : Node) (tail : List Piece), node.isWritable = true →
    (node.isText = true → beginsWithText tail = false) → Fit tail → Fit (node.pieces ++ tail)
  | .text content, tail, h, hnext, htail => ⟨h, hnext, htail⟩
  | .output expr, tail, h, _, htail =>
      ⟨h, fun htext => absurd htext Bool.false_ne_true, htail⟩
  | .branch [] _, _, h, _, _ => absurd h Bool.false_ne_true
  | .branch ((condition, body) :: branches) otherwise, tail, h, _, htail => by
      simp only [Node.isWritable, Bool.and_eq_true] at h
      have hend : Fit (.block .ifEnd :: tail) := fit_block rfl htail
      have helse := fit_elsePieces otherwise hend (fit_nodes otherwise _ h.right rfl hend)
      have hfirst : beginsWithText (elsePieces otherwise (nodesPieces otherwise) ++
          .block .ifEnd :: tail) = false := beginsWithText_elsePieces otherwise rfl
      have helif := fit_branches branches _ h.left.right hfirst helse
      have hbody := fit_nodes body _ h.left.left.right
        (beginsWithText_elifPieces branches hfirst) helif
      rw [Node.pieces, List.cons_append]
      simp only [List.append_assoc, List.singleton_append]
      exact fit_block h.left.left.left hbody
  | .loop target iterable body empty, tail, h, _, htail => by
      simp only [Node.isWritable, Bool.and_eq_true] at h
      have hend : Fit (.block .forEnd :: tail) := fit_block rfl htail
      have helse := fit_elsePieces empty hend (fit_nodes empty _ h.right rfl hend)
      have hbody := fit_nodes body _ h.left.right (beginsWithText_elsePieces empty rfl) helse
      have hstart : (Statement.forStart target iterable).isWritable = true :=
        Bool.and_eq_true_iff.mpr h.left.left
      rw [Node.pieces, List.cons_append]
      simp only [List.append_assoc, List.singleton_append]
      exact fit_block hstart hbody
  | .assign name value, tail, h, _, htail => fit_block h htail
  | .run expr, tail, h, _, htail => fit_block h htail

theorem fit_nodes : ∀ (nodes : List Node) (tail : List Piece), nodesAreWritable nodes = true →
    beginsWithText tail = false → Fit tail → Fit (nodesPieces nodes ++ tail)
  | [], _, _, _, htail => htail
  | node :: rest, tail, h, hnext, htail => by
      simp only [nodesAreWritable, Bool.and_eq_true, Bool.not_eq_true', Bool.and_eq_false_iff] at h
      obtain ⟨⟨hnode, hapart⟩, hrest⟩ := h
      rw [nodesPieces, List.append_assoc]
      refine fit_node node _ hnode (fun htext => ?_) (fit_nodes rest tail hrest hnext htail)
      rw [beginsWithText_nodes hrest hnext]
      exact hapart.resolve_left (by simp [htext])

theorem fit_branches : ∀ (branches : List (Expr × List Node)) (tail : List Piece),
    branchesAreWritable branches = true → beginsWithText tail = false → Fit tail →
    Fit (elifPieces branches ++ tail)
  | [], _, _, _, htail => htail
  | (condition, body) :: branches, tail, h, hnext, htail => by
      simp only [branchesAreWritable, Bool.and_eq_true] at h
      have hrest := fit_branches branches tail h.right hnext htail
      have hbody := fit_nodes body _ h.left.right
        (beginsWithText_elifPieces branches hnext) hrest
      rw [elifPieces, List.cons_append, List.append_assoc]
      exact fit_block h.left.left hbody

end

theorem fit_macro {m : MacroDef} (h : m.isWritable = true) (htail : Fit tail) :
    Fit (m.pieces ++ tail) := by
  simp only [MacroDef.isWritable, Bool.and_eq_true] at h
  have hend : Fit (.block .macroEnd :: tail) := fit_block rfl htail
  have hstart : (Statement.macroStart m.name m.params).isWritable = true :=
    Bool.and_eq_true_iff.mpr h.left
  rw [MacroDef.pieces, List.cons_append, List.append_assoc, List.singleton_append]
  exact fit_block hstart (fit_nodes m.body _ h.right rfl hend)

theorem fit_macros (macros : List MacroDef) (h : macros.all MacroDef.isWritable = true)
    (htail : Fit tail) : Fit (macros.flatMap MacroDef.pieces ++ tail) := by
  induction macros with
  | nil => exact htail
  | cons m macros ih =>
      rw [List.all_cons, Bool.and_eq_true] at h
      rw [List.flatMap_cons, List.append_assoc]
      exact fit_macro h.left (ih h.right)

theorem fit_body {body : Body} (h : body.isWritable = true) : Fit body.pieces := by
  simp only [Body.isWritable, Bool.and_eq_true] at h
  have hnodes := fit_nodes body.nodes [] h.right rfl trivial
  rw [List.append_nil] at hnodes
  exact fit_macros body.macros h.left.left hnodes

end Fit

/-!
## Assembling the pieces
-/

namespace Assembly

def take (assembly : Assembly) : Piece → Except SyntaxFault Assembly
  | .text content => .ok (assembly.add (.text content))
  | .output expr => .ok (assembly.add (.output expr))
  | .block s => assembly.statement s

def takeAll (assembly : Assembly) : List Piece → Except SyntaxFault Assembly
  | [] => .ok assembly
  | p :: ps =>
      match assembly.take p with
      | .ok next => next.takeAll ps
      | .error fault => .error fault

theorem token_of_tells {assembly next : Assembly} {p : Piece} {t : Token}
    (h : Tells template p t) (hnext : assembly.take p = .ok next) :
    assembly.token template t = .ok next := by
  cases h with
  | text =>
      cases hnext
      simp [token, String.ofList_toList]
  | output hparse =>
      cases hnext
      simp only [token, hparse]
  | block hparse =>
      have hstatement : assembly.statement _ = .ok next := hnext
      simp only [token, hparse, hstatement]

theorem tokens_of_tells {ts : List Token} (h : List.Forall₂ (Tells template) ps ts)
    {assembly last : Assembly} (hall : assembly.takeAll ps = .ok last) :
    assembly.tokens template ts = .ok last := by
  induction h generalizing assembly with
  | nil =>
      rw [takeAll] at hall
      cases hall
      rfl
  | @cons p t ps ts hfirst _ ih =>
      rw [takeAll] at hall
      cases hnext : assembly.take p with
      | error fault =>
          rw [hnext] at hall
          cases hall
      | ok next =>
          rw [hnext] at hall
          rw [tokens, token_of_tells hfirst hnext]
          exact ih hall

def addAll (assembly : Assembly) (nodes : List Node) : Assembly :=
  { assembly with nodes := assembly.nodes ++ nodes }

theorem takeAll_block {assembly next : Assembly} {s : Statement}
    (h : assembly.statement s = .ok next) (ps : List Piece) :
    assembly.takeAll (.block s :: ps) = next.takeAll ps := by
  rw [takeAll, take, h]

def Adds (nodes : List Node) : Prop :=
  ∀ (a : Assembly) (tail : List Piece),
    a.takeAll (nodesPieces nodes ++ tail) = (a.addAll nodes).takeAll tail

theorem takeAll_ending {a opened : Assembly} {s : Statement} {otherwise : List Node}
    (closed : List Node → Assembly) (hends : a.statement s = .ok (closed []))
    (hopens : a.statement .elseStart = .ok opened)
    (hcloses : (opened.addAll otherwise).statement s = .ok (closed otherwise))
    (h : Adds otherwise) (tail : List Piece) :
    a.takeAll (elsePieces otherwise (nodesPieces otherwise) ++ .block s :: tail)
      = (closed otherwise).takeAll tail := by
  cases otherwise with
  | nil => exact takeAll_block hends tail
  | cons node rest =>
      rw [elsePieces, List.cons_append, takeAll_block hopens, h]
      exact takeAll_block hcloses tail

mutual

theorem takeAll_node : ∀ (node : Node), node.isWritable = true → ∀ (a : Assembly)
    (tail : List Piece), a.takeAll (node.pieces ++ tail) = (a.add node).takeAll tail
  | .text _, _, _, _ => rfl
  | .output _, _, _, _ => rfl
  | .branch [] _, h, _, _ => absurd h Bool.false_ne_true
  | .branch ((condition, body) :: branches) otherwise, h, a, tail => by
      simp only [Node.isWritable, Bool.and_eq_true] at h
      rw [Node.pieces, List.cons_append]
      simp only [List.append_assoc, List.singleton_append]
      rw [takeAll_block rfl, takeAll_nodes body h.left.left.right]
      exact takeAll_branches branches otherwise h.left.right (takeAll_nodes otherwise h.right)
        condition body a.nodes [] a.enclosing a.macros tail
  | .loop target iterable body empty, h, a, tail => by
      simp only [Node.isWritable, Bool.and_eq_true] at h
      rw [Node.pieces, List.cons_append]
      simp only [List.append_assoc, List.singleton_append]
      rw [takeAll_block rfl, takeAll_nodes body h.left.right]
      exact takeAll_ending (fun empty => a.add (.loop target iterable body empty)) rfl rfl
        rfl (takeAll_nodes empty h.right) tail
  | .assign _ _, _, _, _ => rfl
  | .run _, _, _, _ => rfl

theorem takeAll_nodes : ∀ (nodes : List Node), nodesAreWritable nodes = true → Adds nodes
  | [], _, a, tail => by
      rw [nodesPieces, List.nil_append, addAll, List.append_nil]
  | node :: rest, h, a, tail => by
      simp only [nodesAreWritable, Bool.and_eq_true] at h
      rw [nodesPieces, List.append_assoc, takeAll_node node h.left.left, takeAll_nodes rest h.right,
        addAll, addAll, add, List.append_assoc, List.singleton_append]

-- The open block holds the branches that are complete, so the statement is about any of them.
theorem takeAll_branches : ∀ (branches : List (Expr × List Node)) (otherwise : List Node),
    branchesAreWritable branches = true → Adds otherwise → ∀ (condition : Expr)
      (body before : List Node) (done : List (Expr × List Node))
      (outer : List (OpenBlock × List Node)) (macros : List MacroDef) (tail : List Piece),
    (⟨body, (.branch done condition, before) :: outer, macros⟩ : Assembly).takeAll
        (elifPieces branches ++
          (elsePieces otherwise (nodesPieces otherwise) ++ .block .ifEnd :: tail))
      = (⟨before ++ [.branch (done ++ (condition, body) :: branches) otherwise], outer, macros⟩ :
          Assembly).takeAll tail
  | [], otherwise, _, helse, condition, body, before, done, outer, macros, tail => by
      rw [elifPieces, List.nil_append]
      exact takeAll_ending (a := ⟨body, (.branch done condition, before) :: outer, macros⟩)
        (s := .ifEnd)
        (fun otherwise =>
          ⟨before ++ [.branch (done ++ [(condition, body)]) otherwise], outer, macros⟩)
        rfl rfl rfl helse tail
  | (next, inside) :: branches, otherwise, h, helse, condition, body, before, done, outer, macros,
      tail => by
      simp only [branchesAreWritable, Bool.and_eq_true] at h
      rw [elifPieces, List.cons_append, List.append_assoc, takeAll_block rfl,
        takeAll_nodes inside h.left.right]
      have hrest := takeAll_branches branches otherwise h.right helse next inside before
        (done ++ [(condition, body)]) outer macros tail
      rw [List.append_assoc, List.singleton_append] at hrest
      exact hrest

end

theorem takeAll_macro {m : MacroDef} (h : m.isWritable = true) (a : Assembly)
    (hnew : m.name ∉ a.macros.map MacroDef.name) (tail : List Piece) :
    a.takeAll (m.pieces ++ tail)
      = ({ a with macros := a.macros ++ [m] } : Assembly).takeAll tail := by
  simp only [MacroDef.isWritable, Bool.and_eq_true] at h
  have hfresh : a.hasMacro m.name = false := by
    simpa [hasMacro, List.any_eq_false] using hnew
  have hend : (⟨m.body, (.macroBody m.name m.params, a.nodes) :: a.enclosing, a.macros⟩ :
      Assembly).statement .macroEnd = .ok { a with macros := a.macros ++ [m] } :=
    if_neg (Bool.eq_false_iff.mp hfresh)
  rw [MacroDef.pieces, List.cons_append, List.append_assoc, List.singleton_append,
    takeAll_block rfl, takeAll_nodes m.body h.right]
  exact takeAll_block hend tail

theorem takeAll_macros : ∀ (macros : List MacroDef), macros.all MacroDef.isWritable = true →
    ∀ (a : Assembly), ((a.macros ++ macros).map MacroDef.name).Nodup → ∀ (tail : List Piece),
    a.takeAll (macros.flatMap MacroDef.pieces ++ tail)
      = ({ a with macros := a.macros ++ macros } : Assembly).takeAll tail
  | [], _, a, _, tail => by
      rw [List.flatMap_nil, List.nil_append, List.append_nil]
  | m :: macros, h, a, hnodup, tail => by
      rw [List.all_cons, Bool.and_eq_true] at h
      have hnew : m.name ∉ a.macros.map MacroDef.name := by
        rw [List.map_append] at hnodup
        exact fun hmem => (List.nodup_append.mp hnodup).right.right _ hmem _ List.mem_cons_self rfl
      rw [List.append_cons] at hnodup
      rw [List.flatMap_cons, List.append_assoc, takeAll_macro h.left a hnew,
        takeAll_macros macros h.right { a with macros := a.macros ++ [m] } hnodup,
        List.append_assoc, List.singleton_append]

end Assembly

theorem takeAll_body {body : Body} (h : body.isWritable = true) :
    Assembly.empty.takeAll body.pieces = .ok ⟨body.nodes, [], body.macros⟩ := by
  simp only [Body.isWritable, Bool.and_eq_true, decide_eq_true_eq] at h
  have hnodes := Assembly.takeAll_nodes body.nodes h.right ⟨[], [], body.macros⟩ []
  rw [List.append_nil] at hnodes
  rw [Body.pieces, Assembly.takeAll_macros body.macros h.left.left Assembly.empty h.left.right]
  exact hnodes

theorem Body.parse_of_tells {name : String} {body : Body} {text : String} {tokens : List Token}
    (htokens : tokenize text.toList = .ok tokens) (htells : List.Forall₂ (Tells name) ps tokens)
    (h : Assembly.empty.takeAll ps = .ok ⟨body.nodes, [], body.macros⟩) :
    Body.parse name text = .ok body := by
  have hassembled := Assembly.tokens_of_tells htells h
  simp only [Body.parse, htokens, Body.ofTokens, hassembled, Assembly.finish]

theorem Body.parse_of_writes (name : String) {body : Body} (h : body.isWritable = true)
    {text : String} (htext : Writes body.pieces text.toList) : Body.parse name text = .ok body := by
  rcases tokenize_of_writes name htext (fit_body h) with ⟨tokens, htokens, htells⟩
  exact Body.parse_of_tells htokens htells (takeAll_body h)

/-- A written body is read back from its printed text, and from every text that writes the same
pieces with other white space in its tags. -/
theorem parse_printedBody (name : String) (body : Body) (h : body.isWritable = true) :
    Body.parse name body.print = .ok body ∧
      ∀ text : String, Writes body.pieces text.toList → Body.parse name text = .ok body := by
  have hwritten : ∀ text : String, Writes body.pieces text.toList →
      Body.parse name text = .ok body := fun _ => Body.parse_of_writes name h
  refine ⟨hwritten _ ?_, hwritten⟩
  rw [Body.print, String.toList_ofList]
  exact writes_print body.pieces

def labelledColumns : Body where
  nodes := [
    .branch [
        (.var "a", [.text "select ", .output (.lit (.str "%\x7d"))]),
        (.not (.var "b"), [.run (.call (.var "f") [] [("k", .lit .null)])])]
      [.text "\n"],
    .loop (.pair "k" "v") (.dict [(.lit (.str "\x7d\x7d"), .lit (.int 1))])
      [.output (.call (.var "label") [.var "k"] [])] [],
    .assign "x" (.dict [])]
  macros := [⟨"label", [("name", none), ("mark", some (.lit (.str "it's")))],
    [.text "\x7b ", .output (.binary .concat (.var "name") (.var "mark"))]⟩]

theorem parse_printedBody_labelledColumns :
    labelledColumns.isWritable = true ∧
      labelledColumns.print =
        "\x7b% macro label ( name , mark = 'it\\'s' ) %\x7d\n\x7b \x7b\x7b name ~ mark \x7d\x7d" ++
        "\x7b% endmacro %\x7d\n" ++
        "\x7b% if a %\x7d\nselect \x7b\x7b '%\x7d' \x7d\x7d" ++
        "\x7b% elif not b %\x7d\n\x7b% do f ( k = none ) %\x7d\n" ++
        "\x7b% else %\x7d\n\n\x7b% endif %\x7d\n" ++
        "\x7b% for k , v in \x7b '\x7d\x7d' : 1 \x7d %\x7d\n\x7b\x7b label ( k ) \x7d\x7d" ++
        "\x7b% endfor %\x7d\n" ++
        "\x7b% set x = \x7b \x7d %\x7d\n" ∧
      Body.parse "t" labelledColumns.print = .ok labelledColumns :=
  ⟨by decide, by decide +kernel, (parse_printedBody "t" labelledColumns (by decide)).left⟩

end Template
end TransformChain
