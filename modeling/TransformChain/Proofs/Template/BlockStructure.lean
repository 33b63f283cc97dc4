import TransformChain.Proofs.Template.TemplateReading

/-!
# Block structure

The pieces of a template give a body exactly if they are well nested, that is, if they can be
derived from the grammar of blocks, and no two macros have the same name.  The assembly keeps a
stack of open blocks; what it has read at any time are the parts of these blocks that are complete,
each derivable by itself.  The nodes write the same pieces again, without macros and without empty
else parts.
-/

namespace TransformChain
namespace Template

/-!
## The grammar
-/

/-- Pieces in a row, the nodes that they give and the macros that they define. -/
structure Passage where
  pieces : List Piece
  nodes : List Node
  macros : List MacroDef

namespace Passage

def empty : Passage :=
  ⟨[], [], []⟩

def append (p q : Passage) : Passage :=
  ⟨p.pieces ++ q.pieces, p.nodes ++ q.nodes, p.macros ++ q.macros⟩

def single (piece : Piece) (node : Node) : Passage :=
  ⟨[piece], [node], []⟩

def elifsPieces (parts : List (Expr × Passage)) : List Piece :=
  parts.flatMap fun part => .block (.elifStart part.1) :: part.2.pieces

def branchPieces : List (Expr × Passage) → List Piece
  | [] => []
  | (condition, body) :: others =>
      .block (.ifStart condition) :: (body.pieces ++ elifsPieces others)

def otherwisePieces (otherwise : Option Passage) : List Piece :=
  otherwise.toList.flatMap fun body => .block .elseStart :: body.pieces

def branchNodes (parts : List (Expr × Passage)) : List (Expr × List Node) :=
  parts.map fun part => (part.1, part.2.nodes)

def branchMacros (parts : List (Expr × Passage)) : List MacroDef :=
  parts.flatMap fun part => part.2.macros

def branch (parts : List (Expr × Passage)) (otherwise : Option Passage) : Passage where
  pieces := branchPieces parts ++ (otherwisePieces otherwise ++ [.block .ifEnd])
  nodes := [.branch (branchNodes parts) (otherwise.toList.flatMap nodes)]
  macros := branchMacros parts ++ otherwise.toList.flatMap macros

def loop (target : LoopTarget) (iterable : Expr) (body : Passage) (otherwise : Option Passage) :
    Passage where
  pieces := .block (.forStart target iterable) ::
    (body.pieces ++ (otherwisePieces otherwise ++ [.block .forEnd]))
  nodes := [.loop target iterable body.nodes (otherwise.toList.flatMap nodes)]
  macros := body.macros ++ otherwise.toList.flatMap macros

/-- The block of a macro, which gives no node.  The macros inside it end before it does. -/
def definition (name : String) (params : List MacroParameter) (body : Passage) : Passage where
  pieces := .block (.macroStart name params) :: (body.pieces ++ [.block .macroEnd])
  nodes := []
  macros := body.macros ++ [⟨name, params, body.nodes⟩]

/-- Any number of texts, outputs, assignments, runs and blocks: an `if` with any number of `elif`
and with or without `else`, a `for` with or without `else`, or a macro. -/
inductive IsBody : Passage → Prop where
  | empty : IsBody empty
  | text {p : Passage} (content : String) : IsBody p →
      IsBody (p.append (single (.text content) (.text content)))
  | output {p : Passage} (expr : Expr) : IsBody p →
      IsBody (p.append (single (.output expr) (.output expr)))
  | assign {p : Passage} (name : String) (value : Expr) : IsBody p →
      IsBody (p.append (single (.block (.assign name value)) (.assign name value)))
  | run {p : Passage} (expr : Expr) : IsBody p →
      IsBody (p.append (single (.block (.run expr)) (.run expr)))
  | branch {p : Passage} {parts : List (Expr × Passage)} {otherwise : Option Passage} :
      IsBody p → parts ≠ [] → (∀ part ∈ parts, IsBody part.2) →
      (∀ body ∈ otherwise, IsBody body) → IsBody (p.append (branch parts otherwise))
  | loop {p body : Passage} {otherwise : Option Passage} (target : LoopTarget) (iterable : Expr) :
      IsBody p → IsBody body → (∀ body ∈ otherwise, IsBody body) →
      IsBody (p.append (loop target iterable body otherwise))
  | definition {p body : Passage} (name : String) (params : List MacroParameter) :
      IsBody p → IsBody body → IsBody (p.append (definition name params body))

/-- The names of the macros, in the order in which their blocks end. -/
def macroNames (macros : List MacroDef) : List String :=
  macros.map MacroDef.name

end Passage

open Passage

/-!
## Well nested pieces are read
-/

namespace Assembly

def behind (a : Assembly) (p : Passage) : Assembly :=
  ⟨a.nodes ++ p.nodes, a.enclosing, a.macros ++ p.macros⟩

/-- The passage is read from everywhere, as long as no macro is defined twice. -/
def Takes (p : Passage) : Prop :=
  ∀ (a : Assembly) (tail : List Piece), (macroNames (a.macros ++ p.macros)).Nodup →
    a.takeAll (p.pieces ++ tail) = (a.behind p).takeAll tail

theorem hasMacro_iff {a : Assembly} {name : String} :
    a.hasMacro name = true ↔ name ∈ macroNames a.macros := by
  simp only [hasMacro, macroNames, List.any_eq_true, beq_iff_eq, List.mem_map]

theorem nodup_concat {macros : List MacroDef} {m : MacroDef} (h : (macroNames macros).Nodup)
    (hnew : m.name ∉ macroNames macros) : (macroNames (macros ++ [m])).Nodup := by
  unfold macroNames at h hnew ⊢
  rw [List.map_append, List.map_singleton]
  refine List.nodup_append.mpr ⟨h, List.pairwise_singleton _ _, ?_⟩
  intro name hname last hlast heq
  rw [heq, List.mem_singleton.mp hlast] at hname
  exact hnew hname

theorem nodup_of_append {first second : List MacroDef}
    (h : (macroNames (first ++ second)).Nodup) : (macroNames first).Nodup := by
  unfold macroNames at h ⊢
  rw [List.map_append] at h
  exact (List.nodup_append.mp h).left

theorem Takes.append {p q : Passage} (hp : Takes p) (hq : Takes q) : Takes (p.append q) := by
  intro a tail hnodup
  have hall : (macroNames ((a.macros ++ p.macros) ++ q.macros)).Nodup := by
    rw [List.append_assoc]
    exact hnodup
  simp only [Passage.append, List.append_assoc]
  rw [hp a _ (nodup_of_append hall), hq (a.behind p) tail hall]
  simp only [behind, List.append_assoc]

theorem takes_empty : Takes Passage.empty := by
  intro a tail _
  simp only [Passage.empty, behind, List.append_nil, List.nil_append]

theorem takes_single {piece : Piece} {node : Node}
    (h : ∀ a : Assembly, a.take piece = .ok (a.add node)) : Takes (single piece node) := by
  intro a tail _
  simp only [single, List.cons_append, List.nil_append, takeAll, h, behind, add, List.append_nil]

theorem takes_ending {a opened : Assembly} {s : Statement} {otherwise : Option Passage}
    (closed : List Node → List MacroDef → Assembly)
    (hopens : a.statement .elseStart = .ok opened) (hmacros : opened.macros = a.macros)
    (hends : a.statement s = .ok (closed [] a.macros))
    (hcloses : ∀ body : Passage,
      (opened.behind body).statement s = .ok (closed body.nodes (a.macros ++ body.macros)))
    (h : ∀ body ∈ otherwise, Takes body)
    (hnodup : (macroNames (a.macros ++ otherwise.toList.flatMap Passage.macros)).Nodup)
    (tail : List Piece) :
    a.takeAll (otherwisePieces otherwise ++ .block s :: tail) =
      (closed (otherwise.toList.flatMap Passage.nodes)
        (a.macros ++ otherwise.toList.flatMap Passage.macros)).takeAll tail := by
  cases otherwise with
  | none =>
      simp only [otherwisePieces, Option.toList_none, List.flatMap_nil, List.nil_append,
        List.append_nil]
      exact takeAll_block hends tail
  | some body =>
      simp only [otherwisePieces, Option.toList_some, List.flatMap_singleton,
        List.cons_append] at hnodup ⊢
      rw [takeAll_block hopens, h body rfl opened _ (by rw [hmacros]; exact hnodup),
        takeAll_block (hcloses body)]

-- The open block holds the parts that are complete, so the induction is about any of them.
theorem takes_elifs {parts : List (Expr × Passage)} {otherwise : Option Passage}
    (hparts : ∀ part ∈ parts, Takes part.2) (hotherwise : ∀ body ∈ otherwise, Takes body)
    (nodes before : List Node) (done : List (Expr × List Node)) (condition : Expr)
    (outer : List (OpenBlock × List Node)) (macros : List MacroDef)
    (hnodup : (macroNames (macros ++ (branchMacros parts ++
      otherwise.toList.flatMap Passage.macros))).Nodup) (tail : List Piece) :
    (⟨nodes, (.branch done condition, before) :: outer, macros⟩ : Assembly).takeAll
        (elifsPieces parts ++ (otherwisePieces otherwise ++ .block .ifEnd :: tail)) =
      (⟨before ++ [.branch (done ++ (condition, nodes) :: branchNodes parts)
          (otherwise.toList.flatMap Passage.nodes)], outer,
        macros ++ (branchMacros parts ++ otherwise.toList.flatMap Passage.macros)⟩ :
          Assembly).takeAll tail := by
  induction parts generalizing nodes done condition macros with
  | nil =>
      exact takes_ending (a := ⟨nodes, (.branch done condition, before) :: outer, macros⟩)
        (s := .ifEnd)
        (fun otherwise macros =>
          ⟨before ++ [.branch (done ++ [(condition, nodes)]) otherwise], outer, macros⟩)
        rfl rfl rfl (fun _ => rfl) hotherwise hnodup tail
  | cons part parts ih =>
      obtain ⟨next, body⟩ := part
      obtain ⟨hbody, hrest⟩ := List.forall_mem_cons.mp hparts
      have hall : (macroNames ((macros ++ body.macros) ++ (branchMacros parts ++
          otherwise.toList.flatMap Passage.macros))).Nodup := by
        simpa only [branchMacros, List.flatMap_cons, List.append_assoc] using hnodup
      have htaken := ih hrest body.nodes (done ++ [(condition, nodes)]) next
        (macros ++ body.macros) hall
      simp only [branchMacros, branchNodes, List.append_assoc, List.singleton_append] at htaken
      simp only [elifsPieces, branchMacros, branchNodes, List.flatMap_cons, List.map_cons,
        List.cons_append, List.append_assoc]
      rw [takeAll_block rfl, hbody _ _ (nodup_of_append hall)]
      exact htaken

theorem takes_branch {parts : List (Expr × Passage)} {otherwise : Option Passage}
    (hne : parts ≠ []) (hparts : ∀ part ∈ parts, Takes part.2)
    (hotherwise : ∀ body ∈ otherwise, Takes body) : Takes (branch parts otherwise) := by
  intro a tail hnodup
  obtain ⟨⟨condition, body⟩, parts, rfl⟩ := List.exists_cons_of_ne_nil hne
  obtain ⟨hbody, hrest⟩ := List.forall_mem_cons.mp hparts
  have hall : (macroNames ((a.macros ++ body.macros) ++ (branchMacros parts ++
      otherwise.toList.flatMap Passage.macros))).Nodup := by
    simpa only [branch, branchMacros, List.flatMap_cons, List.append_assoc] using hnodup
  have htaken := takes_elifs hrest hotherwise body.nodes a.nodes [] condition a.enclosing
    (a.macros ++ body.macros) hall tail
  simp only [branchMacros, branchNodes, List.append_assoc, List.nil_append] at htaken
  simp only [branch, branchPieces, branchMacros, branchNodes, behind, List.flatMap_cons,
    List.map_cons, List.cons_append, List.append_assoc]
  rw [takeAll_block rfl, hbody (a.opening (.branch [] condition)) _ (nodup_of_append hall)]
  exact htaken

theorem takes_loop {target : LoopTarget} {iterable : Expr} {body : Passage}
    {otherwise : Option Passage} (hbody : Takes body)
    (hotherwise : ∀ body ∈ otherwise, Takes body) :
    Takes (loop target iterable body otherwise) := by
  intro a tail hnodup
  have hall : (macroNames ((a.macros ++ body.macros) ++
      otherwise.toList.flatMap Passage.macros)).Nodup := by
    rw [List.append_assoc]
    exact hnodup
  have hrest := takes_ending
    (a := ⟨body.nodes, (.loop target iterable, a.nodes) :: a.enclosing, a.macros ++ body.macros⟩)
    (s := .forEnd)
    (fun otherwise macros =>
      ⟨a.nodes ++ [.loop target iterable body.nodes otherwise], a.enclosing, macros⟩)
    rfl rfl rfl (fun _ => rfl) hotherwise hall tail
  simp only [List.append_assoc] at hrest
  simp only [loop, behind, List.cons_append, List.append_assoc]
  rw [takeAll_block rfl,
    hbody (a.opening (.loop target iterable)) _ (nodup_of_append hall)]
  exact hrest

theorem takes_definition {name : String} {params : List MacroParameter} {body : Passage}
    (hbody : Takes body) : Takes (definition name params body) := by
  intro a tail hnodup
  have hall : (macroNames ((a.macros ++ body.macros) ++
      [⟨name, params, body.nodes⟩])).Nodup := by
    rw [List.append_assoc]
    exact hnodup
  have hnew : name ∉ macroNames (a.macros ++ body.macros) := by
    unfold macroNames at hall ⊢
    rw [List.map_append] at hall
    exact fun hmem => (List.nodup_append.mp hall).right.right _ hmem _ List.mem_cons_self rfl
  have hend : (⟨body.nodes, (.macroBody name params, a.nodes) :: a.enclosing,
      a.macros ++ body.macros⟩ : Assembly).statement .macroEnd =
        .ok (a.behind (definition name params body)) := by
    have hfresh : ¬ (⟨body.nodes, (.macroBody name params, a.nodes) :: a.enclosing,
        a.macros ++ body.macros⟩ : Assembly).hasMacro name = true := by
      rwa [hasMacro_iff]
    simp only [statement, ending, if_neg hfresh, behind, definition, List.append_nil,
      List.append_assoc]
  simp only [definition, List.cons_append, List.append_assoc]
  rw [takeAll_block rfl,
    hbody (a.opening (.macroBody name params)) _ (nodup_of_append hall)]
  exact takeAll_block hend tail

theorem takes_of_isBody {p : Passage} (h : IsBody p) : Takes p := by
  induction h with
  | empty => exact takes_empty
  | text content _ ih => exact ih.append (takes_single fun _ => rfl)
  | output expr _ ih => exact ih.append (takes_single fun _ => rfl)
  | assign name value _ ih => exact ih.append (takes_single fun _ => rfl)
  | run expr _ ih => exact ih.append (takes_single fun _ => rfl)
  | branch _ hne _ _ ih hparts hotherwise =>
      exact ih.append (takes_branch hne hparts hotherwise)
  | loop target iterable _ _ _ ih hbody hotherwise =>
      exact ih.append (takes_loop hbody hotherwise)
  | definition name params _ _ ih hbody => exact ih.append (takes_definition hbody)

end Assembly

/-!
## What is read is well nested
-/

def partStart : List (Expr × Passage) → Expr → Statement
  | [], condition => .ifStart condition
  | _ :: _, condition => .elifStart condition

theorem branchPieces_concat (parts : List (Expr × Passage)) (condition : Expr) (body : Passage) :
    branchPieces (parts ++ [(condition, body)]) =
      branchPieces parts ++ .block (partStart parts condition) :: body.pieces := by
  cases parts with
  | nil => simp only [branchPieces, elifsPieces, partStart, List.nil_append, List.flatMap_nil,
      List.append_nil]
  | cons part parts => simp only [branchPieces, elifsPieces, partStart, List.cons_append,
      List.flatMap_append, List.flatMap_singleton, List.append_assoc]

theorem branchNodes_concat (parts : List (Expr × Passage)) (condition : Expr) (body : Passage) :
    branchNodes (parts ++ [(condition, body)]) =
      branchNodes parts ++ [(condition, body.nodes)] := by
  simp only [branchNodes, List.map_append, List.map_cons, List.map_nil]

theorem branchMacros_concat (parts : List (Expr × Passage)) (condition : Expr) (body : Passage) :
    branchMacros (parts ++ [(condition, body)]) = branchMacros parts ++ body.macros := by
  simp only [branchMacros, List.flatMap_append, List.flatMap_singleton]

/-- The pieces of an open block up to the part that is being filled, and the macros in them. -/
inductive Opens : OpenBlock → List Piece → List MacroDef → Prop where
  | branch {parts : List (Expr × Passage)} (condition : Expr) :
      (∀ part ∈ parts, IsBody part.2) →
      Opens (.branch (branchNodes parts) condition)
        (branchPieces parts ++ [.block (partStart parts condition)]) (branchMacros parts)
  | otherwise {parts : List (Expr × Passage)} : parts ≠ [] → (∀ part ∈ parts, IsBody part.2) →
      Opens (.otherwise (branchNodes parts)) (branchPieces parts ++ [.block .elseStart])
        (branchMacros parts)
  | loop (target : LoopTarget) (iterable : Expr) :
      Opens (.loop target iterable) [.block (.forStart target iterable)] []
  | loopElse {body : Passage} (target : LoopTarget) (iterable : Expr) : IsBody body →
      Opens (.loopElse target iterable body.nodes)
        (.block (.forStart target iterable) :: (body.pieces ++ [.block .elseStart])) body.macros
  | macroBody (name : String) (params : List MacroParameter) :
      Opens (.macroBody name params) [.block (.macroStart name params)] []

/-- The pieces up to the innermost open part, and the macros in them. -/
inductive Encloses : List (OpenBlock × List Node) → List Piece → List MacroDef → Prop where
  | nil : Encloses [] [] []
  | cons {block : OpenBlock} {p : Passage} {outer : List (OpenBlock × List Node)}
      {before opened : List Piece} {earlier inside : List MacroDef} :
      Encloses outer before earlier → IsBody p → Opens block opened inside →
      Encloses ((block, p.nodes) :: outer) (before ++ (p.pieces ++ opened))
        (earlier ++ (p.macros ++ inside))

def IsItem (item : Passage) : Prop :=
  ∀ p, IsBody p → IsBody (p.append item)

theorem isBody_of_isItem {item : Passage} (h : IsItem item) : IsBody item := by
  have hitem := h Passage.empty .empty
  simpa only [Passage.append, Passage.empty, List.nil_append] using hitem

section Parts

variable {opened : List Piece} {inside : List MacroDef} {p : Passage}

theorem forall_mem_concat {parts : List (Expr × Passage)} (condition : Expr)
    (h : ∀ part ∈ parts, IsBody part.2) (hp : IsBody p) :
    ∀ part ∈ parts ++ [(condition, p)], IsBody part.2 := by
  rw [List.forall_mem_append, List.forall_mem_singleton]
  exact ⟨h, hp⟩

theorem opens_elif {done : List (Expr × List Node)} {condition : Expr} (next : Expr)
    (h : Opens (.branch done condition) opened inside) (hp : IsBody p) :
    Opens (.branch (done ++ [(condition, p.nodes)]) next)
      (opened ++ (p.pieces ++ [.block (.elifStart next)])) (inside ++ p.macros) := by
  cases h with
  | @branch parts _ hparts =>
      have hopens := Opens.branch next (forall_mem_concat condition hparts hp)
      have hstart : partStart (parts ++ [(condition, p)]) next = .elifStart next := by
        cases parts <;> rfl
      rw [branchNodes_concat, branchMacros_concat, branchPieces_concat, hstart] at hopens
      rw [List.append_assoc] at hopens ⊢
      exact hopens

theorem opens_otherwise {done : List (Expr × List Node)} {condition : Expr}
    (h : Opens (.branch done condition) opened inside) (hp : IsBody p) :
    Opens (.otherwise (done ++ [(condition, p.nodes)]))
      (opened ++ (p.pieces ++ [.block .elseStart])) (inside ++ p.macros) := by
  cases h with
  | @branch parts _ hparts =>
      have hopens := Opens.otherwise (List.append_ne_nil_of_right_ne_nil _ (List.cons_ne_nil _ _))
        (forall_mem_concat condition hparts hp)
      rw [branchNodes_concat, branchMacros_concat, branchPieces_concat] at hopens
      rw [List.append_assoc] at hopens ⊢
      exact hopens

theorem opens_loopElse {target : LoopTarget} {iterable : Expr}
    (h : Opens (.loop target iterable) opened inside) (hp : IsBody p) :
    Opens (.loopElse target iterable p.nodes)
      (opened ++ (p.pieces ++ [.block .elseStart])) (inside ++ p.macros) := by
  cases h
  exact .loopElse target iterable hp

theorem isItem_branch {done : List (Expr × List Node)} {condition : Expr}
    (h : Opens (.branch done condition) opened inside) (hp : IsBody p) :
    IsItem ⟨opened ++ (p.pieces ++ [.block .ifEnd]),
      [.branch (done ++ [(condition, p.nodes)]) []], inside ++ p.macros⟩ := by
  cases h with
  | @branch parts _ hparts =>
      intro q hq
      have hbody : IsBody (q.append (Passage.branch (parts ++ [(condition, p)]) none)) :=
        .branch hq (List.append_ne_nil_of_right_ne_nil _ (List.cons_ne_nil _ _))
          (forall_mem_concat condition hparts hp) (fun _ h => nomatch h)
      simp only [Passage.branch, branchNodes_concat, branchMacros_concat, branchPieces_concat,
        otherwisePieces, Option.toList_none, List.flatMap_nil, List.nil_append,
        List.append_nil] at hbody
      rw [List.append_assoc] at hbody ⊢
      exact hbody

theorem isItem_otherwise {done : List (Expr × List Node)}
    (h : Opens (.otherwise done) opened inside) (hp : IsBody p) :
    IsItem ⟨opened ++ (p.pieces ++ [.block .ifEnd]), [.branch done p.nodes],
      inside ++ p.macros⟩ := by
  cases h with
  | @otherwise parts hne hparts =>
      intro q hq
      have hbody : IsBody (q.append (Passage.branch parts (some p))) :=
        .branch hq hne hparts (fun body hbody => by cases hbody; exact hp)
      simp only [Passage.branch, otherwisePieces, Option.toList_some, List.flatMap_singleton,
        List.cons_append] at hbody
      rw [List.append_assoc]
      exact hbody

theorem isItem_loop {target : LoopTarget} {iterable : Expr}
    (h : Opens (.loop target iterable) opened inside) (hp : IsBody p) :
    IsItem ⟨opened ++ (p.pieces ++ [.block .forEnd]), [.loop target iterable p.nodes []],
      inside ++ p.macros⟩ := by
  cases h with
  | loop =>
      intro q hq
      have hbody : IsBody (q.append (Passage.loop target iterable p none)) :=
        .loop target iterable hq hp (fun _ h => nomatch h)
      simp only [Passage.loop, otherwisePieces, Option.toList_none, List.flatMap_nil,
        List.nil_append, List.append_nil] at hbody
      exact hbody

theorem isItem_loopElse {target : LoopTarget} {iterable : Expr} {nodes : List Node}
    (h : Opens (.loopElse target iterable nodes) opened inside) (hp : IsBody p) :
    IsItem ⟨opened ++ (p.pieces ++ [.block .forEnd]), [.loop target iterable nodes p.nodes],
      inside ++ p.macros⟩ := by
  cases h with
  | @loopElse body _ _ hloop =>
      intro q hq
      have hbody : IsBody (q.append (Passage.loop target iterable body (some p))) :=
        .loop target iterable hq hloop (fun body hbody => by cases hbody; exact hp)
      simp only [Passage.loop, otherwisePieces, Option.toList_some, List.flatMap_singleton,
        List.cons_append] at hbody
      simp only [List.cons_append, List.append_assoc, List.nil_append]
      exact hbody

theorem isItem_macroBody {name : String} {params : List MacroParameter}
    (h : Opens (.macroBody name params) opened inside) (hp : IsBody p) :
    IsItem ⟨opened ++ (p.pieces ++ [.block .macroEnd]), [],
      inside ++ (p.macros ++ [⟨name, params, p.nodes⟩])⟩ := by
  cases h
  exact fun q hq => .definition name params hq hp

end Parts

namespace Assembly

/-- What has been read: the open blocks and a body in the innermost part. -/
def Reads (seen : List Piece) (a : Assembly) : Prop :=
  (macroNames a.macros).Nodup ∧ ∃ before earlier p,
    Encloses a.enclosing before earlier ∧ IsBody p ∧ seen = before ++ p.pieces ∧
      a.nodes = p.nodes ∧ a.macros = earlier ++ p.macros

section Steps

variable {a : Assembly} {seen : List Piece} {piece : Piece} {nodes before : List Node}
  {outer : List (OpenBlock × List Node)} {macros : List MacroDef}

theorem reads_empty : Reads [] empty :=
  ⟨List.nodup_nil, [], [], Passage.empty, .nil, .empty, rfl, rfl, rfl⟩

theorem Reads.add {node : Node} (h : Reads seen a) (hitem : IsItem (single piece node)) :
    Reads (seen ++ [piece]) (a.add node) := by
  obtain ⟨hnodup, before, earlier, p, houter, hp, hseen, hnodes, hmacros⟩ := h
  refine ⟨hnodup, before, earlier, _, houter, hitem p hp, ?_, ?_, ?_⟩
  · simp only [hseen, Passage.append, single, List.append_assoc]
  · simp only [Assembly.add, hnodes, Passage.append, single]
  · simp only [Assembly.add, hmacros, Passage.append, single, List.append_nil]

theorem Reads.opening {block : OpenBlock} (h : Reads seen a) (hopens : Opens block [piece] []) :
    Reads (seen ++ [piece]) (a.opening block) := by
  obtain ⟨hnodup, before, earlier, p, houter, hp, hseen, hnodes, hmacros⟩ := h
  have hencloses := Encloses.cons houter hp hopens
  rw [← hnodes] at hencloses
  refine ⟨hnodup, _, _, Passage.empty, hencloses, .empty, ?_, rfl, ?_⟩
  · simp only [hseen, Passage.empty, List.append_assoc, List.append_nil]
  · simp only [Assembly.opening, hmacros, Passage.empty, List.append_nil]

theorem Reads.turn {block next : OpenBlock}
    (h : Reads seen ⟨nodes, (block, before) :: outer, macros⟩)
    (hopens : ∀ opened inside p, Opens block opened inside → IsBody p → p.nodes = nodes →
      Opens next (opened ++ (p.pieces ++ [piece])) (inside ++ p.macros)) :
    Reads (seen ++ [piece]) ⟨[], (next, before) :: outer, macros⟩ := by
  obtain ⟨hnodup, _, _, p, hencloses, hp, hseen, hnodes, (hmacros : macros = _)⟩ := h
  cases hencloses with
  | cons houter hq hblock =>
      refine ⟨hnodup, _, _, Passage.empty, .cons houter hq (hopens _ _ p hblock hp hnodes.symm),
        .empty, ?_, rfl, ?_⟩
      · simp only [hseen, Passage.empty, List.append_assoc, List.append_nil]
      · simp only [hmacros, Passage.empty, List.append_assoc, List.append_nil]

theorem Reads.close {block : OpenBlock} {new : List Node} {defined : List MacroDef}
    (h : Reads seen ⟨nodes, (block, before) :: outer, macros⟩)
    (hnodup : (macroNames (macros ++ defined)).Nodup)
    (hitem : ∀ opened inside p, Opens block opened inside → IsBody p → p.nodes = nodes →
      IsItem ⟨opened ++ (p.pieces ++ [piece]), new, inside ++ (p.macros ++ defined)⟩) :
    Reads (seen ++ [piece]) ⟨before ++ new, outer, macros ++ defined⟩ := by
  obtain ⟨_, _, _, p, hencloses, hp, hseen, hnodes, (hmacros : macros = _)⟩ := h
  cases hencloses with
  | cons houter hq hblock =>
      refine ⟨hnodup, _, _, _, houter, hitem _ _ p hblock hp hnodes.symm _ hq, ?_, rfl, ?_⟩
      · simp only [hseen, Passage.append, List.append_assoc]
      · simp only [hmacros, Passage.append, List.append_assoc]

theorem Reads.close_plain {block : OpenBlock} {new : List Node}
    (h : Reads seen ⟨nodes, (block, before) :: outer, macros⟩)
    (hitem : ∀ opened inside p, Opens block opened inside → IsBody p → p.nodes = nodes →
      IsItem ⟨opened ++ (p.pieces ++ [piece]), new, inside ++ p.macros⟩) :
    Reads (seen ++ [piece]) ⟨before ++ new, outer, macros⟩ := by
  have hclosed : Reads (seen ++ [piece]) ⟨before ++ new, outer, macros ++ []⟩ :=
    h.close (by simpa only [List.append_nil] using h.left)
      (by simpa only [List.append_nil] using hitem)
  simpa only [List.append_nil] using hclosed

theorem Reads.take_ending {next : Assembly} {s : Statement} (h : Reads seen a)
    (hnext : a.ending s = .ok next) : Reads (seen ++ [.block s]) next := by
  obtain ⟨nodes, enclosing, macros⟩ := a
  unfold ending at hnext
  -- one case for each open part with a statement that fits it, and one for the rest
  split at hnext <;> rename_i henclosing
  case h_1 =>
    cases henclosing
    cases hnext
    exact h.turn fun _ _ p hopens hp hnodes => hnodes ▸ opens_elif _ hopens hp
  case h_2 =>
    cases henclosing
    cases hnext
    exact h.turn fun _ _ p hopens hp hnodes => hnodes ▸ opens_otherwise hopens hp
  case h_3 =>
    cases henclosing
    cases hnext
    exact h.close_plain fun _ _ p hopens hp hnodes => hnodes ▸ isItem_branch hopens hp
  case h_4 =>
    cases henclosing
    cases hnext
    exact h.close_plain fun _ _ p hopens hp hnodes => hnodes ▸ isItem_otherwise hopens hp
  case h_5 =>
    cases henclosing
    cases hnext
    exact h.turn fun _ _ p hopens hp hnodes => hnodes ▸ opens_loopElse hopens hp
  case h_6 =>
    cases henclosing
    cases hnext
    exact h.close_plain fun _ _ p hopens hp hnodes => hnodes ▸ isItem_loop hopens hp
  case h_7 =>
    cases henclosing
    cases hnext
    exact h.close_plain fun _ _ p hopens hp hnodes => hnodes ▸ isItem_loopElse hopens hp
  case h_8 name params before outer =>
    cases henclosing
    split at hnext
    case isTrue => cases hnext
    case isFalse hnew =>
      cases hnext
      rw [hasMacro_iff] at hnew
      have hclosed := h.close (nodup_concat h.left hnew) fun _ _ p hopens hp hnodes =>
        hnodes ▸ isItem_macroBody hopens hp
      rw [List.append_nil] at hclosed
      exact hclosed
  case h_9 => cases hnext

theorem Reads.take {next : Assembly} (h : Reads seen a) (hnext : a.take piece = .ok next) :
    Reads (seen ++ [piece]) next := by
  cases piece with
  | text content =>
      cases hnext
      exact h.add fun _ hp => .text content hp
  | output expr =>
      cases hnext
      exact h.add fun _ hp => .output expr hp
  | block s =>
      cases s with
      | ifStart condition =>
          cases hnext
          have hopens := Opens.branch condition (List.forall_mem_nil _)
          exact h.opening hopens
      | forStart target iterable =>
          cases hnext
          exact h.opening (.loop target iterable)
      | macroStart name params =>
          cases hnext
          exact h.opening (.macroBody name params)
      | assign name value =>
          cases hnext
          exact h.add fun _ hp => .assign name value hp
      | run expr =>
          cases hnext
          exact h.add fun _ hp => .run expr hp
      | elifStart condition => exact h.take_ending hnext
      | elseStart => exact h.take_ending hnext
      | ifEnd => exact h.take_ending hnext
      | forEnd => exact h.take_ending hnext
      | macroEnd => exact h.take_ending hnext

theorem Reads.takeAll {last : Assembly} {ps : List Piece} (h : Reads seen a)
    (hall : a.takeAll ps = .ok last) : Reads (seen ++ ps) last := by
  induction ps generalizing seen a with
  | nil =>
      cases hall
      rwa [List.append_nil]
  | cons p ps ih =>
      rw [Assembly.takeAll] at hall
      cases hnext : a.take p with
      | error fault =>
          rw [hnext] at hall
          cases hall
      | ok next =>
          rw [hnext] at hall
          rw [List.append_cons]
          exact ih (h.take hnext) hall

theorem Reads.finish {body : Body} (h : Reads seen a) (hbody : a.finish = .ok body) :
    IsBody ⟨seen, body.nodes, body.macros⟩ ∧ (macroNames body.macros).Nodup := by
  obtain ⟨hnodup, _, _, p, hencloses, hp, hseen, hnodes, hmacros⟩ := h
  obtain ⟨nodes, enclosing, macros⟩ := a
  cases enclosing with
  | cons block outer => cases hbody
  | nil =>
      cases hbody
      cases hencloses
      refine ⟨?_, hnodup⟩
      rw [hseen, hnodes, hmacros]
      exact hp

end Steps

def assemble (ps : List Piece) : Except SyntaxFault Body :=
  match empty.takeAll ps with
  | .ok last => last.finish
  | .error fault => .error fault

/-- The pieces give a body exactly if they are well nested and no two macros have the same name. -/
theorem assemble_iff {ps : List Piece} {body : Body} :
    assemble ps = .ok body ↔
      IsBody ⟨ps, body.nodes, body.macros⟩ ∧ (macroNames body.macros).Nodup := by
  unfold assemble
  constructor
  · intro hbody
    cases hall : empty.takeAll ps with
    | error fault =>
        rw [hall] at hbody
        cases hbody
    | ok last =>
        rw [hall] at hbody
        exact (reads_empty.takeAll hall).finish hbody
  · rintro ⟨hbody, hnodup⟩
    have hall := takes_of_isBody hbody empty [] hnodup
    rw [List.append_nil] at hall
    rw [hall]
    rfl

end Assembly
end Template
end TransformChain
