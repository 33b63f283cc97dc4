import Mathlib.Data.List.Forall2
import TransformChain.Proofs.Text.Words
import TransformChain.Proofs.Warehouse.Learning

/-!
# What a session sends

A session hands the warehouse one statement for each preview, query and saved table, and one view
for each saved view; whatever else it is asked, and whatever fails, leaves no trace there.  A query
is refused exactly if one of the risky words stands alone in it.
-/

namespace TransformChain
namespace Session

/-!
## Requests
-/

inductive Request where
  | dataset (name : String)
  | root (dataset : Dataset)
  | transform (chain : Chain) (name : String) (args : Keyed Argument) (options : StepOptions)
  | compile (chain : Chain)
  | sql (chain : Chain) (method : RenderMethod)
  | outputTable (chain : Chain)
  | asDataset (chain : Chain)
  | preview (chain : Chain)
  | query (sql : String) (acknowledged : Bool)
  | save (chain : Chain) (target : Option TableName) (kind : TableKind)

inductive Reply where
  | chain (chain : Chain)
  | query (query : CompiledQuery)
  | text (text : String)
  | table (name : TableName)
  | dataset (dataset : Dataset)
  | done

/-- Whether the warehouse has no part in a request but to answer questions about columns. -/
def Request.isQuiet : Request → Bool
  | preview _ => false
  | query _ _ => false
  | save _ _ _ => false
  | _ => true

def perform (session : Session) : Request → Asking Reply
  | .dataset name => do
      let chain ← session.dataset name
      return .chain chain
  | .root dataset => return .chain (.root dataset)
  | .transform chain name args options => do
      let next ← session.transform chain name args options
      return .chain next
  | .compile chain => do
      let query ← session.compile chain
      return .query query
  | .sql chain method => do
      let text ← session.sql chain method
      return .text text
  | .outputTable chain => do
      let name ← session.outputTable chain
      return .table name
  | .asDataset chain => do
      let dataset ← session.asDataset chain
      return .dataset dataset
  | .preview chain => do
      session.preview chain
      return .done
  | .query sql acknowledged => do
      query sql acknowledged
      return .done
  | .save chain target kind => do
      let name ← session.save chain target kind
      return .table name

structure Exchange where
  resolver : Resolver
  request : Request
  reply : Except Error Reply

def performAll (session : Session) : List Request → Resolver → List Exchange × Resolver
  | [], resolver => ([], resolver)
  | request :: rest, resolver =>
      let (reply, next) := session.perform request resolver
      let (exchanges, last) := session.performAll rest next
      (⟨resolver, request, reply⟩ :: exchanges, last)

/-!
## Deliveries
-/

inductive Delivery where
  | statement (sql : String)
  | view (name : TableName) (sql : String)

namespace Delivery

def statement? : Delivery → Option String
  | statement sql => some sql
  | view _ _ => none

def view? : Delivery → Option (TableName × String)
  | statement _ => none
  | view name sql => some (name, sql)

def saving (kind : TableKind) (name : TableName) (compiled : CompiledQuery) : Delivery :=
  match kind with
  | .table => statement (compiled.createStatement .table name)
  | .view => view name compiled.sql

def hand (delivery : Delivery) (warehouse : Warehouse) : Except Error Unit × Warehouse :=
  match delivery with
  | statement sql => warehouse.execute sql
  | view name sql => warehouse.createView name sql

end Delivery

structure Delivered (deliveries : List Delivery) (before after : Warehouse) : Prop where
  executed_eq : after.executed = before.executed ++ deliveries.filterMap Delivery.statement?
  views_eq : after.views = before.views ++ deliveries.filterMap Delivery.view?

/-- What an exchange delivers: nothing if the request failed or is a quiet one. -/
inductive Delivers (session : Session) : Exchange → List Delivery → Prop
  | failed {resolver request e} : Delivers session ⟨resolver, request, .error e⟩ []
  | quiet {resolver request reply} (hquiet : Request.isQuiet request = true) :
      Delivers session ⟨resolver, request, .ok reply⟩ []
  | preview {resolver chain compiled reply}
      (hcompile : (session.compile chain resolver).1 = .ok compiled) :
      Delivers session ⟨resolver, .preview chain, .ok reply⟩
        [.statement (compiled.sql ++ "\nLIMIT " ++ Decimal.digitText session.config.previewLimit)]
  | query {resolver sql acknowledged reply} :
      Delivers session ⟨resolver, .query sql acknowledged, .ok reply⟩ [.statement sql]
  | save {resolver chain target kind compiled name}
      (hcompile : (session.compile chain resolver).1 = .ok compiled)
      (hname : target.elim (session.outputTable chain) .ok = .ok name) :
      Delivers session ⟨resolver, .save chain target kind, .ok (.table name)⟩
        [.saving kind name compiled]

section Deliveries

variable {session : Session} {resolver next : Resolver} {before between after : Warehouse}

theorem Delivered.trans {first more : List Delivery} (h : Delivered first before between)
    (hmore : Delivered more between after) : Delivered (first ++ more) before after := by
  constructor
  · rw [hmore.executed_eq, h.executed_eq, List.filterMap_append, List.append_assoc]
  · rw [hmore.views_eq, h.views_eq, List.filterMap_append, List.append_assoc]

theorem delivered_of_learns (h : Resolver.Learns resolver next) :
    Delivered [] resolver.warehouse next.warehouse := by
  rcases Resolver.warehouse_of_learns h with ⟨lookups, hnext⟩
  rw [hnext]
  exact ⟨(List.append_nil _).symm, (List.append_nil _).symm⟩

theorem request_hand_cases (delivery : Delivery) (resolver : Resolver) :
    (∃ e, Resolver.request delivery.hand resolver = (.error e, resolver)) ∨
    ∃ next, Resolver.request delivery.hand resolver = (.ok (), next) ∧
      Delivered [delivery] resolver.warehouse next.warehouse := by
  cases delivery with
  | statement sql =>
      simp only [Resolver.request, Delivery.hand, Warehouse.execute]
      cases resolver.warehouse.runFailure with
      | some e => exact Or.inl ⟨e, rfl⟩
      | none => exact Or.inr ⟨_, rfl, rfl, (List.append_nil _).symm⟩
  | view name sql =>
      simp only [Resolver.request, Delivery.hand, Warehouse.createView]
      cases resolver.warehouse.runFailure with
      | some e => exact Or.inl ⟨e, rfl⟩
      | none => exact Or.inr ⟨_, rfl, (List.append_nil _).symm, rfl⟩

theorem onlyAsks_perform {request : Request} (h : request.isQuiet = true) :
    OnlyAsks (session.perform request) := by
  cases request with
  | dataset name => exact (OnlyAsks.lift _).bind fun _ => .pure _
  | root dataset => exact .pure _
  | transform chain name args options =>
      exact (session.onlyAsks_transform chain _ _ _).bind fun _ => .pure _
  | compile chain => exact (session.onlyAsks_compile chain).bind fun _ => .pure _
  | sql chain method => exact (session.onlyAsks_sql chain method).bind fun _ => .pure _
  | outputTable chain => exact (OnlyAsks.lift _).bind fun _ => .pure _
  | asDataset chain => exact (session.onlyAsks_asDataset chain).bind fun _ => .pure _
  | preview | query | save => cases h

def Answered (session : Session) (request : Request) (resolver : Resolver) : Prop :=
  ∃ deliveries reply next, session.perform request resolver = (reply, next) ∧
    Delivers session ⟨resolver, request, reply⟩ deliveries ∧
    Delivered deliveries resolver.warehouse next.warehouse

theorem answered_of_quiet {request : Request} (h : request.isQuiet = true) :
    Answered session request resolver := by
  have hlearns := (session.onlyAsks_perform h).learns resolver
  rcases hperform : session.perform request resolver with ⟨reply, next⟩
  rw [hperform] at hlearns
  refine ⟨[], reply, next, hperform, ?_, delivered_of_learns hlearns⟩
  cases reply with
  | error e => exact .failed
  | ok reply => exact .quiet h

theorem query_of_none {sql : String} {acknowledged : Bool}
    (h : (if acknowledged then none else riskyKeyword? sql) = none) :
    query sql acknowledged = Resolver.request (Delivery.statement sql).hand := by
  rw [query, h]
  rfl

theorem answered_query (sql : String) (acknowledged : Bool) :
    Answered session (.query sql acknowledged) resolver := by
  unfold Answered
  simp only [perform, Asking.bind_apply]
  cases hrisky : if acknowledged then none else riskyKeyword? sql with
  | some keyword =>
      simp only [query, hrisky]
      exact ⟨[], _, resolver, rfl, .failed, delivered_of_learns .refl⟩
  | none =>
      rw [query_of_none hrisky]
      rcases request_hand_cases (.statement sql) resolver with ⟨e, hrun⟩ | ⟨next, hrun, hdelivered⟩
      · simp only [hrun]
        exact ⟨[], _, resolver, rfl, .failed, delivered_of_learns .refl⟩
      · simp only [hrun]
        exact ⟨_, _, next, rfl, .query, hdelivered⟩

theorem preview_eq (session : Session) (chain : Chain) :
    session.preview chain = (do
      let compiled ← session.compile chain
      Resolver.request (Delivery.statement
        (compiled.sql ++ "\nLIMIT " ++ Decimal.digitText session.config.previewLimit)).hand) :=
  rfl

theorem answered_preview (chain : Chain) : Answered session (.preview chain) resolver := by
  have hasked := delivered_of_learns ((session.onlyAsks_compile chain).learns resolver)
  unfold Answered
  simp only [perform, preview_eq, Asking.bind_apply]
  rcases hcompile : session.compile chain resolver with ⟨result, asked⟩
  rw [hcompile] at hasked
  cases result with
  | error e => exact ⟨[], _, asked, rfl, .failed, hasked⟩
  | ok compiled =>
      rcases request_hand_cases (.statement (compiled.sql ++ "\nLIMIT " ++
        Decimal.digitText session.config.previewLimit)) asked with
        ⟨e, hrun⟩ | ⟨next, hrun, hdelivered⟩
      · simp only [hrun]
        exact ⟨[], _, asked, rfl, .failed, hasked⟩
      · simp only [hrun]
        exact ⟨_, _, next, rfl, .preview (congrArg Prod.fst hcompile), hasked.trans hdelivered⟩

theorem save_eq (session : Session) (chain : Chain) (target : Option TableName)
    (kind : TableKind) :
    session.save chain target kind = (do
      let compiled ← session.compile chain
      let name ← liftM (target.elim (session.outputTable chain) .ok)
      Resolver.request (Delivery.saving kind name compiled).hand
      return name) := by
  cases target <;> cases kind <;> rfl

theorem answered_save (chain : Chain) (target : Option TableName) (kind : TableKind) :
    Answered session (.save chain target kind) resolver := by
  have hasked := delivered_of_learns ((session.onlyAsks_compile chain).learns resolver)
  unfold Answered
  simp only [perform, save_eq, Asking.bind_apply]
  rcases hcompile : session.compile chain resolver with ⟨result, asked⟩
  rw [hcompile] at hasked
  cases result with
  | error e => exact ⟨[], _, asked, rfl, .failed, hasked⟩
  | ok compiled =>
      simp only [Asking.lift_apply]
      cases hname : target.elim (session.outputTable chain) .ok with
      | error e => exact ⟨[], _, asked, rfl, .failed, hasked⟩
      | ok name =>
          rcases request_hand_cases (.saving kind name compiled) asked with
            ⟨e, hrun⟩ | ⟨next, hrun, hdelivered⟩
          · simp only [hrun]
            exact ⟨[], _, asked, rfl, .failed, hasked⟩
          · simp only [hrun]
            exact ⟨_, _, next, rfl, .save (congrArg Prod.fst hcompile) hname,
              hasked.trans hdelivered⟩

theorem answered (session : Session) (request : Request) (resolver : Resolver) :
    Answered session request resolver := by
  cases request with
  | preview chain => exact answered_preview chain
  | query sql acknowledged => exact answered_query sql acknowledged
  | save chain target kind => exact answered_save chain target kind
  | dataset | root | transform | compile | sql | outputTable | asDataset =>
      exact answered_of_quiet rfl

theorem exists_deliveries (session : Session) (requests : List Request) (resolver : Resolver) :
    ∃ deliveries,
      List.Forall₂ (Delivers session) (session.performAll requests resolver).1 deliveries ∧
      Delivered deliveries.flatten resolver.warehouse
        (session.performAll requests resolver).2.warehouse := by
  induction requests generalizing resolver with
  | nil => exact ⟨[], .nil, delivered_of_learns .refl⟩
  | cons request requests ih =>
      rcases session.answered request resolver with
        ⟨deliveries, reply, next, hperform, hdelivers, hdelivered⟩
      rcases ih next with ⟨others, hothers, hrest⟩
      simp only [performAll, hperform]
      exact ⟨deliveries :: others, .cons hdelivers hothers, hdelivered.trans hrest⟩

end Deliveries

/-!
## Queries
-/

theorem capital_riskyWords : Text.Capital riskyWords := by
  have hall : riskyWords.all (fun word => word != [] && word.all Char.isUpper) = true := by decide
  intro word hmem
  have hword := List.all_eq_true.mp hall word hmem
  rw [Bool.and_eq_true, bne_iff_ne, List.all_eq_true] at hword
  exact hword

theorem query_cases (sql : String) (resolver : Resolver) :
    (∃ before spelling after, sql.toList = before ++ (spelling ++ after) ∧
      Text.Leftmost riskyWords before spelling after ∧
      query sql false resolver =
        (.error (.riskySql (Text.upperAscii (String.ofList spelling))), resolver)) ∨
    ((∀ before spelling after, sql.toList = before ++ (spelling ++ after) →
        ¬Text.StandsAlone riskyWords before spelling after) ∧
      query sql false resolver =
        Resolver.request (fun warehouse => warehouse.execute sql) resolver) := by
  rcases Text.leftmost_or_none capital_riskyWords sql.toList with
    ⟨before, spelling, after, htext, hleftmost, hfound⟩ | ⟨hnone, hfound⟩
  · refine Or.inl ⟨before, spelling, after, htext, hleftmost, ?_⟩
    simp only [query, riskyKeyword?, hfound]
    rfl
  · refine Or.inr ⟨hnone, ?_⟩
    simp only [query, riskyKeyword?, hfound]
    rfl

/-- Whatever a session is asked, the warehouse gets what the successful previews, queries and saves
are for, in the order of the requests, and nothing else; and a query that is not acknowledged is
refused exactly if it has a risky word, with the leftmost one. -/
theorem sends_requested (session : Session) (requests : List Request) (resolver : Resolver) :
    (∃ deliveries,
      List.Forall₂ (Delivers session) (session.performAll requests resolver).1 deliveries ∧
      Delivered deliveries.flatten resolver.warehouse
        (session.performAll requests resolver).2.warehouse) ∧
    ∀ sql met,
      (∃ before spelling after, sql.toList = before ++ (spelling ++ after) ∧
        Text.Leftmost riskyWords before spelling after ∧
        query sql false met =
          (.error (.riskySql (Text.upperAscii (String.ofList spelling))), met)) ∨
      ((∀ before spelling after, sql.toList = before ++ (spelling ++ after) →
          ¬Text.StandsAlone riskyWords before spelling after) ∧
        query sql false met = Resolver.request (fun warehouse => warehouse.execute sql) met) :=
  ⟨session.exists_deliveries requests resolver, query_cases⟩

/-- The long s stands for an S, but its capital is not an ASCII one: the keyword keeps it. -/
theorem longS_keyword_kept :
    Text.StandsAlone riskyWords [] "IN\u017fERT".toList [] ∧
      Text.upper "IN\u017fERT" = "INSERT" ∧
      query "IN\u017fERT" false (.ofWarehouse .empty) =
        (.error (.riskySql "IN\u017fERT"), .ofWarehouse .empty) ∧
      query "IN\u017fERT" false (.ofWarehouse .empty) ≠
        (.error (.riskySql (Text.upper "IN\u017fERT")), .ofWarehouse .empty) := by
  have hkeyword : riskyKeyword? "IN\u017fERT" = some "IN\u017fERT" := by decide +kernel
  have hupper : Text.upper "IN\u017fERT" = "INSERT" := by decide +kernel
  have hquery : query "IN\u017fERT" false (.ofWarehouse .empty) =
      (.error (.riskySql "IN\u017fERT"), .ofWarehouse .empty) := by
    simp only [query, hkeyword]
    rfl
  refine ⟨⟨by decide, fun _ hlast => (nomatch hlast), rfl⟩, hupper, hquery, ?_⟩
  rw [hquery, hupper]
  intro h
  have hsame : "IN\u017fERT" = "INSERT" :=
    Error.riskySql.inj (Except.error.inj (congrArg Prod.fst h))
  exact absurd hsame (by decide)

end Session
end TransformChain
