import TransformChain.Proofs.Template.BlockStructure

/-!
# Macros out of their places

Writing the nodes of a body out gives the pieces that the body was read from without the macro
blocks and without the empty else parts; writing the bodies of the macros out gives the macro
blocks, in the order of their ends.  Both are read off the pieces alone, by one pass that keeps the
macros it is in.
-/

namespace TransformChain
namespace Template

open Passage

/-!
## Sequences of pieces
-/

namespace Piece

def endsBlock : Piece → Bool
  | block .ifEnd | block .forEnd => true
  | _ => false

def isElse : Piece → Bool
  | block .elseStart => true
  | _ => false

def isMacroTag : Piece → Bool
  | block (.macroStart _ _) | block .macroEnd => true
  | _ => false

end Piece

/-- The pieces without each `else` that the end of its block follows. -/
def withoutEmptyElse : List Piece → List Piece
  | [] => []
  | p :: ps =>
      if p.isElse && ps.head?.any Piece.endsBlock then
        withoutEmptyElse ps
      else
        p :: withoutEmptyElse ps

structure MacroBlock where
  name : String
  params : List MacroParameter
  pieces : List Piece

structure Hoisted where
  pieces : List Piece
  blocks : List MacroBlock

def Hoisted.after (blocks : List MacroBlock) (hoisted : Hoisted) : Hoisted :=
  { hoisted with blocks := blocks ++ hoisted.blocks }

/-- Takes the macros out.  The first argument holds the pieces of the innermost macro so far, or of
the body outside of macros, and the second the macros that are open, each with the pieces in front
of it. -/
def hoist : List Piece → List (String × List MacroParameter × List Piece) → List Piece → Hoisted
  | current, _, [] => ⟨withoutEmptyElse current, []⟩
  | current, opened, .block (.macroStart name params) :: ps =>
      hoist [] ((name, params, current) :: opened) ps
  | current, (name, params, before) :: opened, .block .macroEnd :: ps =>
      (hoist before opened ps).after [⟨name, params, withoutEmptyElse current⟩]
  | current, opened, p :: ps => hoist (current ++ [p]) opened ps

def MacroDef.block (m : MacroDef) : MacroBlock :=
  ⟨m.name, m.params, nodesPieces m.body⟩

/-!
## Pieces and what is left of them
-/

theorem nodesPieces_append (first second : List Node) :
    nodesPieces (first ++ second) = nodesPieces first ++ nodesPieces second := by
  induction first with
  | nil => rfl
  | cons node rest ih => rw [List.cons_append, nodesPieces, nodesPieces, ih, List.append_assoc]

theorem nodesPieces_singleton (node : Node) : nodesPieces [node] = node.pieces := by
  rw [nodesPieces, nodesPieces, List.append_nil]

theorem Hoisted.after_append (first second : List MacroBlock) (hoisted : Hoisted) :
    hoisted.after (first ++ second) = (hoisted.after second).after first := by
  simp only [Hoisted.after, List.append_assoc]

theorem withoutEmptyElse_of_not_isElse {p : Piece} (h : p.isElse = false) (tail : List Piece) :
    withoutEmptyElse (p :: tail) = p :: withoutEmptyElse tail := by
  rw [withoutEmptyElse, h, Bool.false_and, if_neg Bool.false_ne_true]

/-- The pieces hold the macros, and without these they are `outer`, which is `written` once the
empty else parts are left out, whatever stands around. -/
structure Hoists (pieces written outer : List Piece) (macros : List MacroDef) : Prop where
  apart : ∀ current opened tail, hoist current opened (pieces ++ tail) =
    (hoist (current ++ outer) opened tail).after (macros.map MacroDef.block)
  same : ∀ tail, withoutEmptyElse (outer ++ tail) = written ++ withoutEmptyElse tail

theorem hoists_nil : Hoists [] [] [] [] where
  apart := fun current _ _ => by rw [List.append_nil]; rfl
  same := fun _ => rfl

theorem Hoists.append {pieces written outer pieces' written' outer' : List Piece}
    {macros macros' : List MacroDef} (h : Hoists pieces written outer macros)
    (h' : Hoists pieces' written' outer' macros') :
    Hoists (pieces ++ pieces') (written ++ written') (outer ++ outer') (macros ++ macros') where
  apart := fun current opened tail => by
    rw [List.append_assoc, h.apart, h'.apart, List.map_append, Hoisted.after_append,
      List.append_assoc]
  same := fun tail => by
    rw [List.append_assoc, h.same, h'.same, List.append_assoc]

theorem hoist_cons {p : Piece} (h : p.isMacroTag = false) (current : List Piece)
    (opened : List (String × List MacroParameter × List Piece)) (ps : List Piece) :
    hoist current opened (p :: ps) = hoist (current ++ [p]) opened ps := by
  cases p with
  | text content => rfl
  | output expr => rfl
  | block s => cases s <;> first | rfl | cases h

theorem hoists_single {p : Piece} (htag : p.isMacroTag = false) (helse : p.isElse = false) :
    Hoists [p] [p] [p] [] where
  apart := fun current opened tail => hoist_cons htag current opened tail
  same := fun tail => withoutEmptyElse_of_not_isElse helse tail

def Begins (outer : List Piece) : Prop :=
  ∃ first rest, outer = first :: rest ∧ first.endsBlock = false

def HoistsBody (p : Passage) : Prop :=
  ∃ outer, Hoists p.pieces (nodesPieces p.nodes) outer p.macros ∧
    (p.nodes = [] ∧ outer = [] ∨ p.nodes ≠ [] ∧ Begins outer)

theorem hoistsBody_empty : HoistsBody Passage.empty :=
  ⟨[], hoists_nil, .inl ⟨rfl, rfl⟩⟩

theorem HoistsBody.append {p q : Passage} (hp : HoistsBody p) (hq : HoistsBody q) :
    HoistsBody (p.append q) := by
  obtain ⟨outer, houter, hbegins⟩ := hp
  obtain ⟨outer', houter', hbegins'⟩ := hq
  refine ⟨outer ++ outer', ?_, ?_⟩
  · rw [Passage.append, nodesPieces_append]
    exact houter.append houter'
  · rcases hbegins with ⟨hnodes, hnil⟩ | ⟨hnodes, first, rest, hfirst, hends⟩
    · simpa only [Passage.append, hnodes, hnil, List.nil_append] using hbegins'
    · refine .inr ⟨List.append_ne_nil_of_left_ne_nil hnodes _, first, rest ++ outer', ?_, hends⟩
      rw [hfirst, List.cons_append]

theorem hoistsBody_single {piece : Piece} {node : Node} (htag : piece.isMacroTag = false)
    (helse : piece.isElse = false) (hends : piece.endsBlock = false)
    (hnode : node.pieces = [piece]) :
    HoistsBody (single piece node) := by
  refine ⟨[piece], ?_, .inr ⟨List.cons_ne_nil _ _, piece, [], rfl, hends⟩⟩
  rw [single, nodesPieces_singleton, hnode]
  exact hoists_single htag helse

theorem hoists_ending {piece : Piece} (h : piece.endsBlock = true) :
    Hoists [piece] [piece] [piece] [] := by
  cases piece with
  | text content => cases h
  | output expr => cases h
  | block s => cases s <;> first | exact hoists_single rfl rfl | cases h

/-- The `else` stays exactly if something stands behind it. -/
theorem withoutEmptyElse_part {body : Passage} {outer : List Piece} {ending : Piece}
    (hends : ending.endsBlock = true)
    (h : Hoists body.pieces (nodesPieces body.nodes) outer body.macros)
    (hbegins : body.nodes = [] ∧ outer = [] ∨ body.nodes ≠ [] ∧ Begins outer)
    (tail : List Piece) :
    withoutEmptyElse (.block .elseStart :: (outer ++ ending :: tail)) =
      elsePieces body.nodes (nodesPieces body.nodes) ++ ending :: withoutEmptyElse tail := by
  have hlast := (hoists_ending hends).same tail
  rw [List.singleton_append, List.singleton_append] at hlast
  rw [withoutEmptyElse, h.same, hlast]
  rcases hbegins with ⟨hnodes, houter⟩ | ⟨hnodes, first, rest, hfirst, hstays⟩
  · rw [hnodes, houter]
    exact if_pos (by simpa [Piece.isElse] using hends)
  · obtain ⟨node, others, hcons⟩ := List.exists_cons_of_ne_nil hnodes
    rw [hcons, hfirst]
    exact if_neg (by simpa [Piece.isElse] using hstays)

theorem hoists_otherwise {otherwise : Option Passage} {ending : Piece}
    (hends : ending.endsBlock = true) (h : ∀ body ∈ otherwise, HoistsBody body) :
    ∃ outer, Hoists (otherwisePieces otherwise ++ [ending])
      (elsePieces (otherwise.toList.flatMap nodes) (nodesPieces (otherwise.toList.flatMap nodes)) ++
        [ending]) outer (otherwise.toList.flatMap macros) := by
  cases otherwise with
  | none => exact ⟨[ending], hoists_ending hends⟩
  | some body =>
      obtain ⟨outer, houter, hbegins⟩ := h body rfl
      have hrest := houter.append (hoists_ending hends)
      simp only [otherwisePieces, Option.toList_some, List.flatMap_singleton]
      refine ⟨.block .elseStart :: (outer ++ [ending]), ?_, ?_⟩
      · intro current opened tail
        rw [List.cons_append, List.cons_append, hoist_cons rfl, hrest.apart, List.append_nil,
          ← List.append_cons]
      · intro tail
        have hwritten := withoutEmptyElse_part hends houter hbegins tail
        simpa only [List.cons_append, List.append_assoc, List.singleton_append,
          List.nil_append] using hwritten

theorem hoists_elifs {parts : List (Expr × Passage)}
    (h : ∀ part ∈ parts, HoistsBody part.2) :
    ∃ outer, Hoists (elifsPieces parts) (elifPieces (branchNodes parts)) outer
      (branchMacros parts) := by
  induction parts with
  | nil => exact ⟨[], hoists_nil⟩
  | cons part parts ih =>
      obtain ⟨condition, body⟩ := part
      obtain ⟨hbody, hparts⟩ := List.forall_mem_cons.mp h
      obtain ⟨outer, houter, _⟩ := hbody
      obtain ⟨others, hothers⟩ := ih hparts
      have hstart : Hoists [.block (.elifStart condition)] [.block (.elifStart condition)]
        [.block (.elifStart condition)] [] := hoists_single rfl rfl
      exact ⟨_, (hstart.append houter).append hothers⟩

theorem hoistsBody_branch {parts : List (Expr × Passage)} {otherwise : Option Passage}
    (hne : parts ≠ []) (hparts : ∀ part ∈ parts, HoistsBody part.2)
    (hotherwise : ∀ body ∈ otherwise, HoistsBody body) :
    HoistsBody (branch parts otherwise) := by
  obtain ⟨⟨condition, body⟩, parts, rfl⟩ := List.exists_cons_of_ne_nil hne
  obtain ⟨hbody, hrest⟩ := List.forall_mem_cons.mp hparts
  obtain ⟨outer, houter, _⟩ := hbody
  obtain ⟨others, hothers⟩ := hoists_elifs hrest
  obtain ⟨last, hlast⟩ := hoists_otherwise (show (Piece.block .ifEnd).endsBlock = true from rfl)
    hotherwise
  have hstart : Hoists [.block (.ifStart condition)] [.block (.ifStart condition)]
    [.block (.ifStart condition)] [] := hoists_single rfl rfl
  have hall := hstart.append (houter.append (hothers.append hlast))
  refine ⟨.block (.ifStart condition) :: (outer ++ (others ++ last)), ?_,
    .inr ⟨List.cons_ne_nil _ _, _, _, rfl, rfl⟩⟩
  simp only [branch, branchPieces, branchNodes, branchMacros, nodesPieces_singleton, Node.pieces,
    List.map_cons, List.flatMap_cons, List.cons_append, List.append_assoc, List.nil_append]
    at hall ⊢
  exact hall

theorem hoistsBody_loop {target : LoopTarget} {iterable : Expr} {body : Passage}
    {otherwise : Option Passage} (hbody : HoistsBody body)
    (hotherwise : ∀ body ∈ otherwise, HoistsBody body) :
    HoistsBody (loop target iterable body otherwise) := by
  obtain ⟨outer, houter, _⟩ := hbody
  obtain ⟨last, hlast⟩ := hoists_otherwise (show (Piece.block .forEnd).endsBlock = true from rfl)
    hotherwise
  have hstart : Hoists [.block (.forStart target iterable)] [.block (.forStart target iterable)]
    [.block (.forStart target iterable)] [] := hoists_single rfl rfl
  have hall := hstart.append (houter.append hlast)
  refine ⟨.block (.forStart target iterable) :: (outer ++ last), ?_,
    .inr ⟨List.cons_ne_nil _ _, _, _, rfl, rfl⟩⟩
  simp only [loop, nodesPieces_singleton, Node.pieces, List.cons_append, List.nil_append]
    at hall ⊢
  exact hall

theorem hoistsBody_definition {name : String} {params : List MacroParameter} {body : Passage}
    (hbody : HoistsBody body) : HoistsBody (definition name params body) := by
  obtain ⟨outer, houter, _⟩ := hbody
  have hbody : withoutEmptyElse outer = nodesPieces body.nodes := by
    have hsame := houter.same []
    simpa only [withoutEmptyElse, List.append_nil] using hsame
  refine ⟨[], ⟨fun current opened tail => ?_, fun _ => rfl⟩, .inl ⟨rfl, rfl⟩⟩
  calc hoist current opened ((definition name params body).pieces ++ tail)
      = hoist [] ((name, params, current) :: opened)
          (body.pieces ++ .block .macroEnd :: tail) := by
        rw [definition, List.cons_append, List.append_assoc, List.singleton_append, hoist]
    _ = (hoist outer ((name, params, current) :: opened) (.block .macroEnd :: tail)).after
          (body.macros.map MacroDef.block) := houter.apart _ _ _
    _ = ((hoist current opened tail).after [⟨name, params, nodesPieces body.nodes⟩]).after
          (body.macros.map MacroDef.block) := by rw [hoist, hbody]
    _ = (hoist (current ++ []) opened tail).after
          ((definition name params body).macros.map MacroDef.block) := by
        rw [← Hoisted.after_append, definition, List.map_append, List.append_nil]
        rfl

theorem hoistsBody_of_isBody {p : Passage} (h : IsBody p) : HoistsBody p := by
  induction h with
  | empty => exact hoistsBody_empty
  | text content _ ih => exact ih.append (hoistsBody_single rfl rfl rfl rfl)
  | output expr _ ih => exact ih.append (hoistsBody_single rfl rfl rfl rfl)
  | assign name value _ ih => exact ih.append (hoistsBody_single rfl rfl rfl rfl)
  | run expr _ ih => exact ih.append (hoistsBody_single rfl rfl rfl rfl)
  | branch _ hne _ _ ih hparts hotherwise =>
      exact ih.append (hoistsBody_branch hne hparts hotherwise)
  | loop target iterable _ _ _ ih hbody hotherwise =>
      exact ih.append (hoistsBody_loop hbody hotherwise)
  | definition name params _ _ ih hbody => exact ih.append (hoistsBody_definition hbody)

theorem hoist_of_isBody {p : Passage} (h : IsBody p) :
    hoist [] [] p.pieces = ⟨nodesPieces p.nodes, p.macros.map MacroDef.block⟩ := by
  obtain ⟨outer, houter, _⟩ := hoistsBody_of_isBody h
  have hsame := houter.same []
  have hapart := houter.apart [] [] []
  simp only [List.append_nil, List.nil_append, withoutEmptyElse] at hsame hapart
  rw [hapart, hoist, hsame, Hoisted.after, List.append_nil]

/-!
## Tokens
-/

section Tokens

variable {template : String} {ps : List Piece} {tokens : List Token}

def Piece.token : Piece → Token
  | text content => .text content.toList
  | output expr => .output (spread expr.bare ++ [' '])
  | block statement => .block (spread statement.lexemes ++ [' '])

theorem tells_token {p : Piece} (h : p.isWritable = true) : Tells template p p.token := by
  cases p with
  | text content => exact .text
  | output expr => exact .output ((writesTag_spread _).expr_parse template h)
  | block statement => exact .block ((writesTag_spread _).statement_parse template h)

theorem tells_tokens (h : ps.all Piece.isWritable = true) :
    List.Forall₂ (Tells template) ps (ps.map Piece.token) := by
  induction ps with
  | nil => exact .nil
  | cons p ps ih =>
      rw [List.all_cons, Bool.and_eq_true] at h
      exact .cons (tells_token h.left) (ih h.right)

namespace Assembly

theorem token_error_of_tells {a : Assembly} {p : Piece} {t : Token} {fault : SyntaxFault}
    (h : Tells template p t) (hfault : a.take p = .error fault) :
    a.token template t = .error (.templateSyntax template fault) := by
  cases h with
  | text => cases hfault
  | output hparse => cases hfault
  | block hparse =>
      have hstatement : a.statement _ = .error fault := hfault
      simp only [token, hparse, hstatement]

theorem tokens_error_of_tells (h : List.Forall₂ (Tells template) ps tokens) {a : Assembly}
    {fault : SyntaxFault} (hfault : a.takeAll ps = .error fault) :
    a.tokens template tokens = .error (.templateSyntax template fault) := by
  induction h generalizing a with
  | nil => cases hfault
  | @cons p t ps ts hfirst _ ih =>
      rw [takeAll] at hfault
      cases hnext : a.take p with
      | error first =>
          rw [hnext] at hfault
          cases hfault
          rw [Assembly.tokens, token_error_of_tells hfirst hnext]
      | ok next =>
          rw [hnext] at hfault
          rw [Assembly.tokens, token_of_tells hfirst hnext]
          exact ih hfault

end Assembly

theorem ofTokens_of_tells (h : List.Forall₂ (Tells template) ps tokens) :
    Body.ofTokens template tokens =
      match Assembly.assemble ps with
      | .ok body => .ok body
      | .error fault => .error (.templateSyntax template fault) := by
  unfold Body.ofTokens Assembly.assemble
  cases hall : Assembly.empty.takeAll ps with
  | error fault => simp only [Assembly.tokens_error_of_tells h hall]
  | ok last =>
      have htokens := Assembly.tokens_of_tells h hall
      cases hlast : last.finish <;> simp only [htokens, hlast]

/-- Tokens whose tags can be read give a body exactly if they are well nested and no two macros have
the same name, and otherwise a syntax error.  The body written out is what the tokens say, without
macros and empty else parts, and its macros are theirs, in the order of their ends. -/
theorem ofTokens_iff_isBody (h : List.Forall₂ (Tells template) ps tokens) :
    (∀ body, Body.ofTokens template tokens = .ok body ↔
      IsBody ⟨ps, body.nodes, body.macros⟩ ∧ (macroNames body.macros).Nodup) ∧
    (∀ body, Body.ofTokens template tokens = .ok body →
      hoist [] [] ps = ⟨nodesPieces body.nodes, body.macros.map MacroDef.block⟩) ∧
    ((¬ ∃ body : Body, IsBody ⟨ps, body.nodes, body.macros⟩ ∧ (macroNames body.macros).Nodup) →
      ∃ fault, Body.ofTokens template tokens = .error (.templateSyntax template fault)) := by
  have hiff : ∀ body, Body.ofTokens template tokens = .ok body ↔
      IsBody ⟨ps, body.nodes, body.macros⟩ ∧ (macroNames body.macros).Nodup := by
    intro body
    rw [ofTokens_of_tells h, ← Assembly.assemble_iff]
    cases Assembly.assemble ps with
    | ok read => exact ⟨fun h => by cases h; rfl, fun h => by cases h; rfl⟩
    | error fault => exact ⟨fun h => (nomatch h), fun h => (nomatch h)⟩
  refine ⟨hiff, fun body hbody => hoist_of_isBody ((hiff body).mp hbody).left, fun hnone => ?_⟩
  rw [ofTokens_of_tells h]
  cases hread : Assembly.assemble ps with
  | ok body => exact absurd ⟨body, Assembly.assemble_iff.mp hread⟩ hnone
  | error fault => exact ⟨fault, rfl⟩

end Tokens

def markedPieces : List Piece :=
  [.block (.ifStart (.var "a")), .text "x", .block .elseStart, .block (.macroStart "m" []),
    .block (.ifStart (.var "b")), .text "y", .block .elseStart, .block .ifEnd, .block .macroEnd,
    .block .ifEnd]

def markedBody : Body where
  nodes := [.branch [(.var "a", [.text "x"])] []]
  macros := [⟨"m", [], [.branch [(.var "b", [.text "y"])] []]⟩]

theorem isBody_marked : IsBody ⟨markedPieces, markedBody.nodes, markedBody.macros⟩ := by
  have hx : IsBody (single (.text "x") (.text "x")) := isBody_of_isItem fun _ hp => .text "x" hp
  have hy : IsBody (single (.text "y") (.text "y")) := isBody_of_isItem fun _ hp => .text "y" hp
  have hinner : IsBody (branch [(.var "b", single (.text "y") (.text "y"))] (some .empty)) :=
    isBody_of_isItem fun _ hp => .branch hp (List.cons_ne_nil _ _)
      (List.forall_mem_singleton.mpr hy) (fun _ h => by cases h; exact .empty)
  have hmacro := isBody_of_isItem fun _ hp => IsBody.definition "m" [] hp hinner
  have hall : IsBody (branch [(.var "a", single (.text "x") (.text "x"))]
      (some (definition "m" [] (branch [(.var "b", single (.text "y") (.text "y"))]
        (some .empty))))) :=
    isBody_of_isItem fun _ hp => .branch hp (List.cons_ne_nil _ _)
      (List.forall_mem_singleton.mpr hx) (fun _ h => by cases h; exact hmacro)
  exact hall

theorem ofTokens_iff_isBody_marked :
    List.Forall₂ (Tells "t") markedPieces (markedPieces.map Piece.token) ∧
      Body.ofTokens "t" (markedPieces.map Piece.token) = .ok markedBody ∧
      hoist [] [] markedPieces =
        ⟨nodesPieces markedBody.nodes, markedBody.macros.map MacroDef.block⟩ := by
  have htells : List.Forall₂ (Tells "t") markedPieces (markedPieces.map Piece.token) :=
    tells_tokens (by decide)
  have hmain := ofTokens_iff_isBody htells
  have hbody := (hmain.left markedBody).mpr ⟨isBody_marked, by decide⟩
  exact ⟨htells, hbody, hmain.right.left _ hbody⟩

end Template
end TransformChain
