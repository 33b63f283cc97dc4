import TransformChain.Proofs.Chain.Projection
import TransformChain.Session

/-!
# Chains in use

A workspace holds the chains that were made so far and the resolver that all of them ask.  Whatever
is done in it, chains are only added.  What a chain with a step compiles to is part of the chain: it
rests on what the steps stored when they were made, and neither the cache nor the warehouse has a
say in it any more.
-/

namespace TransformChain

/-!
## What a step leaves to compile
-/

namespace Chain

/-- What a chain compiles to, asking nobody: the query over its declared columns, or the failure
that it has declared none. -/
structure Settled (chain : Chain) (style : CompileStyle) (result : Except Error CompiledQuery) :
    Prop where
  compile_eq : ∀ resolver, chain.compile style resolver = (result, resolver)
  declared : ∀ columns, chain.declaredColumns = some columns →
    result = chain.compileTo columns style
  undeclared : chain.declaredColumns = none →
    ∃ transform, result = .error (.schemaUnavailable chain.name (.undeclaredStep transform))

theorem exists_settled {chain : Chain} (h : 1 ≤ chain.depth) (style : CompileStyle) :
    ∃ result, chain.Settled style result := by
  cases chain with
  | root dataset => cases h
  | step parent name s =>
      cases houtput : s.output with
      | some columns =>
          refine ⟨(step parent name s).compileTo columns style, ?_, ?_, ?_⟩
          · intro resolver
            simp only [compile, outputColumns, houtput]
            rfl
          · intro found hfound
            rw [declaredColumns, houtput, Option.some.injEq] at hfound
            rw [hfound]
          · intro hnone
            rw [declaredColumns, houtput] at hnone
            cases hnone
      | none =>
          refine ⟨.error (.schemaUnavailable name (.undeclaredStep s.transform.name)), ?_, ?_, ?_⟩
          · intro resolver
            simp only [compile, outputColumns, houtput]
            rfl
          · intro found hfound
            rw [declaredColumns, houtput] at hfound
            cases hfound
          · exact fun _ => ⟨s.transform.name, rfl⟩

end Chain

/-- The chains that were made so far, each known by its place, and the resolver they share. -/
structure Workspace where
  chains : List Chain
  resolver : Resolver

namespace Workspace

/-- What is done with a workspace.  The warehouse can become another at any time. -/
inductive Operation where
  | start (dataset : Dataset)
  | extend (workshop : Workshop) (place : Nat) (transform : String) (args : Keyed Argument)
      (options : StepOptions)
  | compile (place : Nat) (style : CompileStyle)
  | preview (session : Session) (place : Nat)
  | save (session : Session) (place : Nat) (target : Option TableName) (kind : TableKind)
  | columnsOf (dataset : Dataset)
  | prime (name : TableName) (columns : Schema)
  | invalidate (name : TableName)
  | alter (change : Warehouse → Warehouse)

def ask (computation : Asking α) (workspace : Workspace) : Except Error α × Workspace :=
  let (result, next) := computation.run workspace.resolver
  (result, { workspace with resolver := next })

def askAbout (place : Nat) (computation : Chain → Asking α) (workspace : Workspace) :
    Option (Except Error α) × Workspace :=
  match workspace.chains[place]? with
  | none => (none, workspace)
  | some chain =>
      let (result, next) := workspace.ask (computation chain)
      (some result, next)

def compile (place : Nat) (style : CompileStyle) (workspace : Workspace) :
    Option (Except Error CompiledQuery) × Workspace :=
  workspace.askAbout place (Chain.compile style)

def keep : Option (Except Error Chain) × Workspace → Workspace
  | (some (.ok chain), workspace) => { workspace with chains := workspace.chains ++ [chain] }
  | (_, workspace) => workspace

def step (workspace : Workspace) : Operation → Workspace
  | .start dataset => keep (some (.ok (.root dataset)), workspace)
  | .extend workshop place transform args options =>
      keep (workspace.askAbout place fun chain => chain.extend workshop transform args options)
  | .compile place style => (workspace.compile place style).2
  | .preview session place => (workspace.askAbout place session.preview).2
  | .save session place target kind =>
      (workspace.askAbout place fun chain => session.save chain target kind).2
  | .columnsOf dataset => (workspace.ask (Resolver.columnsOf dataset)).2
  | .prime name columns => { workspace with resolver := workspace.resolver.prime name columns }
  | .invalidate name => { workspace with resolver := workspace.resolver.invalidate name }
  | .alter change =>
      { workspace with
        resolver := { workspace.resolver with
          warehouse := change workspace.resolver.warehouse } }

def run (workspace : Workspace) (operations : List Operation) : Workspace :=
  operations.foldl step workspace

/-!
## Chains are only added
-/

theorem chains_askAbout (place : Nat) (computation : Chain → Asking α) (workspace : Workspace) :
    (workspace.askAbout place computation).2.chains = workspace.chains := by
  unfold askAbout
  cases workspace.chains[place]? <;> rfl

theorem chains_keep (asked : Option (Except Error Chain) × Workspace) :
    asked.2.chains <+: (keep asked).chains := by
  rcases asked with ⟨_ | (e | chain), workspace⟩
  · exact List.prefix_rfl
  · exact List.prefix_rfl
  · exact List.prefix_append _ _

theorem chains_step (workspace : Workspace) (operation : Operation) :
    workspace.chains <+: (workspace.step operation).chains := by
  cases operation with
  | start dataset => exact chains_keep (_, workspace)
  | extend workshop place transform args options =>
      have h := chains_keep
        (workspace.askAbout place fun chain => chain.extend workshop transform args options)
      rw [chains_askAbout] at h
      exact h
  | compile place style => exact chains_askAbout place _ workspace ▸ List.prefix_rfl
  | preview session place => exact chains_askAbout place _ workspace ▸ List.prefix_rfl
  | save session place target kind => exact chains_askAbout place _ workspace ▸ List.prefix_rfl
  | _ => exact List.prefix_rfl

/-- By induction on the operations: none of them takes a chain out of its place. -/
theorem chains_run (workspace : Workspace) (operations : List Operation) :
    workspace.chains <+: (workspace.run operations).chains := by
  induction operations generalizing workspace with
  | nil => exact List.prefix_rfl
  | cons operation rest ih => exact (chains_step workspace operation).trans (ih _)

theorem chain_run {workspace : Workspace} {place : Nat} {chain : Chain}
    (h : workspace.chains[place]? = some chain) (operations : List Operation) :
    (workspace.run operations).chains[place]? = some chain := by
  rcases chains_run workspace operations with ⟨added, hadded⟩
  rcases List.getElem?_eq_some_iff.mp h with ⟨hlt, -⟩
  rw [← hadded, List.getElem?_append_left hlt, h]

/-- Once a chain has a step, what it compiles to is settled.  After any operations it gives the same
query, with the same columns and fragments, or the same failure; and compiling it changes neither
the resolver nor the warehouse, whatever these have become, so that nobody is asked. -/
theorem compile_settled {workspace : Workspace} {place : Nat} {chain : Chain}
    (hplace : workspace.chains[place]? = some chain) (hdepth : 1 ≤ chain.depth)
    (style : CompileStyle) :
    ∃ result, chain.Settled style result ∧
      ∀ operations : List Operation,
        (workspace.run operations).compile place style =
          (some result, workspace.run operations) := by
  rcases Chain.exists_settled hdepth style with ⟨result, hsettled⟩
  refine ⟨result, hsettled, fun operations => ?_⟩
  have hrun : (chain.compile style).run (workspace.run operations).resolver =
      (result, (workspace.run operations).resolver) := hsettled.compile_eq _
  simp only [compile, askAbout, chain_run hplace operations, ask, hrun]

def copiedTable : Chain :=
  .step (.root (.table ⟨"A", "B", "C"⟩ none)) "STEP_1_COPY"
    ⟨Chain.copying, ⟨[]⟩, some [⟨"N", none⟩], [], "SELECT * FROM A.B.C", some [⟨"N", none⟩]⟩

def copiedTableInUse : Workspace :=
  ⟨[.root (.table ⟨"A", "B", "C"⟩ none), copiedTable],
    .ofWarehouse (Warehouse.empty.addTable ⟨"A", "B", "C"⟩ [⟨"N", none⟩])⟩

/-- The table is dropped and can no longer be asked about, and its copy compiles as before. -/
theorem copiedTable_settled :
    ∃ query, copiedTableInUse.compile 1 .nested = (some (.ok query), copiedTableInUse) ∧
      ∃ later, later = copiedTableInUse.run [.alter fun _ => .empty,
          .extend Chain.copyWorkshop 1 "copy" [] ⟨none, none⟩, .compile 0 .cte] ∧
        (∃ e, (later.compile 0 .nested).1 = some (.error e)) ∧
        later.compile 1 .nested = (some (.ok query), later) := by
  have hplace : copiedTableInUse.chains[1]? = some copiedTable := rfl
  rcases compile_settled hplace (Nat.le_refl 1) .nested with ⟨result, hsettled, hall⟩
  have hquery : copiedTable.compileTo [⟨"N", none⟩] .nested =
      .ok ⟨"SELECT N\nFROM (\nSELECT * FROM A.B.C\n)", [⟨"N", none⟩], .nested,
        [⟨"STEP_1_COPY", "copy", "SELECT * FROM A.B.C",
          .source (.table ⟨"A", "B", "C"⟩ none), some [⟨"N", none⟩]⟩]⟩ := by rfl
  rw [hsettled.declared _ rfl, hquery] at hall
  exact ⟨_, hall [], _, rfl, ⟨_, rfl⟩, hall _⟩

end Workspace
end TransformChain
