import TransformChain.Pipeline.Building
import TransformChain.Proofs.Warehouse.Asking
import TransformChain.Proofs.Warehouse.History

/-!
# Computations that only ask

Building and compiling chains asks for the columns of tables and does nothing else.  A resolver
comes out of it with more tables remembered, but it answers every question as before, and the
warehouse has neither run a statement nor created a view.
-/

namespace TransformChain
namespace Resolver

variable {resolver next later : Resolver}

/-!
## Answers
-/

def answer (resolver : Resolver) (name : TableName) : Except Error Schema :=
  (tableColumns name resolver).1

inductive Learns (resolver : Resolver) : Resolver → Prop
  | refl : Learns resolver resolver
  | ask {next : Resolver} (name : TableName) (h : Learns resolver next) :
      Learns resolver (tableColumns name next).2

/-- Two resolvers that cannot be told apart by asking about tables. -/
def SameAnswers (resolver other : Resolver) : Prop :=
  ∀ name, resolver.answer name = other.answer name

theorem SameAnswers.trans (h : SameAnswers resolver next) (hnext : SameAnswers next later) :
    SameAnswers resolver later :=
  fun name => (h name).trans (hnext name)

theorem SameAnswers.symm (h : SameAnswers resolver next) : SameAnswers next resolver :=
  fun name => (h name).symm

theorem Learns.trans (h : Learns resolver next) (hnext : Learns next later) :
    Learns resolver later := by
  induction hnext with
  | refl => exact h
  | ask name _ ih => exact ih.ask name

def counted (resolver : Resolver) : Resolver :=
  { resolver with
    warehouse := { resolver.warehouse with lookups := resolver.warehouse.lookups + 1 } }

theorem tableColumns_apply (name : TableName) (resolver : Resolver) :
    tableColumns name resolver =
      match Warehouse.listed? name resolver.cache with
      | some columns => (.ok columns, resolver)
      | none =>
          match Warehouse.listed? name resolver.warehouse.columnFailures with
          | some e => (.error (unavailable name e), resolver)
          | none =>
              match (Warehouse.listed? name resolver.warehouse.tables).getD [] with
              | [] => (.error (.schemaUnavailable name.display .emptyTable), resolver.counted)
              | columns => (.ok columns, resolver.counted.prime name columns) := by
  unfold tableColumns
  cases Warehouse.listed? name resolver.cache with
  | some columns => rfl
  | none =>
      simp only [ask, Warehouse.columns]
      cases Warehouse.listed? name resolver.warehouse.columnFailures with
      | some e => rfl
      | none =>
          cases (Warehouse.listed? name resolver.warehouse.tables).getD [] <;> rfl

/-- After a question the resolver is as it was, or one question is counted, or the columns that
were answered are remembered besides. -/
theorem tableColumns_cases (name : TableName) (resolver : Resolver) :
    (tableColumns name resolver).2 = resolver ∨
      Warehouse.listed? name resolver.cache = none ∧
        ((tableColumns name resolver).2 = resolver.counted ∨
          ∃ columns, resolver.answer name = .ok columns ∧
            (tableColumns name resolver).2 = resolver.counted.prime name columns) := by
  unfold answer
  rw [tableColumns_apply]
  cases hcache : Warehouse.listed? name resolver.cache with
  | some columns => exact Or.inl rfl
  | none =>
      cases Warehouse.listed? name resolver.warehouse.columnFailures with
      | some e => exact Or.inl rfl
      | none =>
          refine Or.inr ⟨rfl, ?_⟩
          cases (Warehouse.listed? name resolver.warehouse.tables).getD [] with
          | nil => exact Or.inl rfl
          | cons column columns => exact Or.inr ⟨_, rfl, rfl⟩

theorem answer_counted (resolver : Resolver) (name : TableName) :
    resolver.counted.answer name = resolver.answer name := by
  unfold answer
  rw [tableColumns_apply, tableColumns_apply, counted]
  cases Warehouse.listed? name resolver.cache with
  | some columns => rfl
  | none =>
      cases Warehouse.listed? name resolver.warehouse.columnFailures with
      | some e => rfl
      | none => cases (Warehouse.listed? name resolver.warehouse.tables).getD [] <;> rfl

theorem answer_prime {name : TableName} {columns : Schema} (other : TableName)
    (h : resolver.answer name = .ok columns) :
    (resolver.prime name columns).answer other = resolver.answer other := by
  by_cases hname : other = name
  · rw [hname, h]
    unfold answer
    rw [tableColumns_apply, prime, Warehouse.listed?_stored_self]
  · unfold answer
    rw [tableColumns_apply, tableColumns_apply, prime, Warehouse.listed?_stored_ne hname]
    cases Warehouse.listed? other resolver.cache with
    | some columns => rfl
    | none =>
        cases Warehouse.listed? other resolver.warehouse.columnFailures with
        | some e => rfl
        | none => cases (Warehouse.listed? other resolver.warehouse.tables).getD [] <;> rfl

theorem sameAnswers_tableColumns (name : TableName) (resolver : Resolver) :
    SameAnswers resolver (tableColumns name resolver).2 := by
  intro other
  rcases tableColumns_cases name resolver with hkept | ⟨-, hcounted | ⟨columns, hanswer, hprimed⟩⟩
  · rw [hkept]
  · rw [hcounted, answer_counted]
  · rw [hprimed, answer_prime other ((answer_counted resolver name).trans hanswer),
      answer_counted]

theorem sameAnswers_of_learns (h : Learns resolver next) : SameAnswers resolver next := by
  induction h with
  | refl => exact fun _ => rfl
  | ask name _ ih => exact ih.trans (sameAnswers_tableColumns name _)

theorem warehouse_of_learns (h : Learns resolver next) :
    ∃ lookups, next.warehouse = { resolver.warehouse with lookups := lookups } := by
  induction h with
  | refl => exact ⟨_, rfl⟩
  | ask name _ ih =>
      rcases ih with ⟨lookups, hbefore⟩
      rcases tableColumns_cases name _ with hkept | ⟨-, hcounted | ⟨columns, -, hprimed⟩⟩
      · rw [hkept]
        exact ⟨lookups, hbefore⟩
      · rw [hcounted, counted, hbefore]
        exact ⟨_, rfl⟩
      · rw [hprimed, prime, counted, hbefore]
        exact ⟨_, rfl⟩

end Resolver

/-!
## Computations
-/

open Resolver

/-- A computation that asks about tables and nothing else: its result is settled by the answers. -/
structure OnlyAsks {ε α : Type} (a : ExceptT ε (StateM Resolver) α) : Prop where
  learns : ∀ resolver, Learns resolver (a resolver).2
  settled : ∀ resolver other, SameAnswers resolver other → (a resolver).1 = (a other).1

namespace OnlyAsks

variable {ε α β : Type}

theorem pure (value : α) : OnlyAsks (Pure.pure value : ExceptT ε (StateM Resolver) α) :=
  ⟨fun _ => .refl, fun _ _ _ => rfl⟩

theorem lift (result : Except ε α) : OnlyAsks (liftM result : ExceptT ε (StateM Resolver) α) :=
  ⟨fun _ => .refl, fun _ _ _ => rfl⟩

theorem throw (e : ε) : OnlyAsks (MonadExcept.throw e : ExceptT ε (StateM Resolver) α) :=
  ⟨fun _ => .refl, fun _ _ _ => rfl⟩

theorem bind {a : ExceptT ε (StateM Resolver) α} {f : α → ExceptT ε (StateM Resolver) β}
    (ha : OnlyAsks a) (hf : ∀ value, OnlyAsks (f value)) : OnlyAsks (a >>= f) := by
  constructor
  · intro resolver
    rw [Asking.bind_apply]
    have hlearns := ha.learns resolver
    rcases hrun : a resolver with ⟨result, next⟩
    rw [hrun] at hlearns
    cases result with
    | error e => exact hlearns
    | ok value => exact hlearns.trans ((hf value).learns next)
  · intro resolver other hsame
    rw [Asking.bind_apply, Asking.bind_apply]
    have hresult := ha.settled resolver other hsame
    have hnext := sameAnswers_of_learns (ha.learns resolver)
    have hother := sameAnswers_of_learns (ha.learns other)
    rcases hrun : a resolver with ⟨result, next⟩
    rcases hrun' : a other with ⟨result', next'⟩
    rw [hrun] at hresult hnext
    rw [hrun'] at hresult hother
    change result = result' at hresult
    subst hresult
    cases result with
    | error e => rfl
    | ok value => exact (hf value).settled next next' (hnext.symm.trans (hsame.trans hother))

theorem adapt {ε' : Type} (wording : ε → ε') {a : ExceptT ε (StateM Resolver) α}
    (ha : OnlyAsks a) : OnlyAsks (ExceptT.adapt wording a) := by
  have happly : ∀ resolver, ExceptT.adapt wording a resolver =
      ((a resolver).1.mapError wording, (a resolver).2) := fun _ => rfl
  constructor
  · intro resolver
    rw [happly]
    exact ha.learns resolver
  · intro resolver other hsame
    rw [happly, happly, ha.settled resolver other hsame]

theorem attempting (attempt : Attempt) {a : Building α} (ha : OnlyAsks a) :
    OnlyAsks (TransformChain.attempting attempt a) :=
  ha.adapt _

theorem plainly {a : Asking α} (ha : OnlyAsks a) : OnlyAsks (TransformChain.plainly a) :=
  ha.adapt _

/-- The results of computations that only ask compose as if nothing had been learnt in between. -/
theorem bind_eq_ok_iff {a : ExceptT ε (StateM Resolver) α}
    {f : α → ExceptT ε (StateM Resolver) β} (ha : OnlyAsks a) (hf : ∀ value, OnlyAsks (f value))
    {resolver : Resolver} {result : β} :
    ((a >>= f) resolver).1 = .ok result ↔
      ∃ value, (a resolver).1 = .ok value ∧ (f value resolver).1 = .ok result := by
  rw [Asking.bind_apply]
  have hlearns := sameAnswers_of_learns (ha.learns resolver)
  rcases hrun : a resolver with ⟨first, next⟩
  rw [hrun] at hlearns
  cases first with
  | error e =>
      constructor
      · intro h
        cases h
      · rintro ⟨_, h, _⟩
        cases h
  | ok value =>
      have hsettled := (hf value).settled resolver next hlearns
      constructor
      · intro h
        exact ⟨value, rfl, hsettled.trans h⟩
      · rintro ⟨_, h, hresult⟩
        cases h
        exact hsettled.symm.trans hresult

theorem lift_eq_ok_iff {first : Except ε α} {resolver : Resolver} {value : α} :
    ((liftM first : ExceptT ε (StateM Resolver) α) resolver).1 = .ok value ↔ first = .ok value :=
  Iff.rfl

theorem adapt_eq_ok_iff {ε' : Type} {wording : ε → ε'} {a : ExceptT ε (StateM Resolver) α}
    {resolver : Resolver} {value : α} :
    (ExceptT.adapt wording a resolver).1 = .ok value ↔ (a resolver).1 = .ok value := by
  change (a resolver).1.mapError wording = .ok value ↔ _
  cases (a resolver).1 with
  | error e =>
      constructor
      · intro h
        cases h
      · intro h
        cases h
  | ok first =>
      constructor
      · intro h
        cases h
        rfl
      · intro h
        cases h
        rfl

theorem attempting_eq_ok_iff {attempt : Attempt} {a : Building α} {resolver : Resolver}
    {value : α} :
    (TransformChain.attempting attempt a resolver).1 = .ok value ↔ (a resolver).1 = .ok value :=
  adapt_eq_ok_iff

theorem plainly_eq_ok_iff {a : Asking α} {resolver : Resolver} {value : α} :
    (TransformChain.plainly a resolver).1 = .ok value ↔ (a resolver).1 = .ok value :=
  adapt_eq_ok_iff

end OnlyAsks

/-!
## Columns of datasets
-/

theorem Resolver.onlyAsks_tableColumns (name : TableName) : OnlyAsks (tableColumns name) :=
  ⟨fun _ => Learns.refl.ask name, fun _ _ hsame => hsame name⟩

theorem Resolver.onlyAsks_columnsOf (dataset : Dataset) : OnlyAsks (columnsOf dataset) := by
  unfold columnsOf
  split
  · exact .pure _
  · exact onlyAsks_tableColumns _
  · exact .throw _

theorem Resolver.onlyAsks_columnsIfKnown (dataset : Dataset) :
    OnlyAsks (columnsIfKnown dataset) := by
  have hcolumns := onlyAsks_columnsOf dataset
  have happly : ∀ resolver, columnsIfKnown dataset resolver =
      (lenient (columnsOf dataset resolver).1, (columnsOf dataset resolver).2) := fun _ => rfl
  constructor
  · intro resolver
    rw [happly]
    exact hcolumns.learns resolver
  · intro resolver other hsame
    rw [happly, happly, hcolumns.settled resolver other hsame]

/-!
## Chains
-/

namespace Chain

theorem onlyAsks_inputColumns (chain : Chain) : OnlyAsks chain.inputColumns := by
  cases chain with
  | root dataset => exact onlyAsks_columnsIfKnown dataset
  | step parent name s => exact .pure _

theorem onlyAsks_sideDatasets (datasets : List (String × Dataset)) :
    OnlyAsks (sideDatasets datasets) := by
  induction datasets with
  | nil => exact .pure _
  | cons entry rest ih =>
      exact (onlyAsks_columnsIfKnown _).bind fun _ => ih.bind fun _ => .pure _

theorem onlyAsks_extend (workshop : Workshop) (chain : Chain) (transformName : String)
    (args : Keyed Argument) (options : StepOptions) :
    OnlyAsks (chain.extend workshop transformName args options) := by
  unfold extend
  exact (OnlyAsks.lift _).bind fun _ => (onlyAsks_inputColumns chain).bind fun _ =>
    (OnlyAsks.lift _).bind fun _ => (onlyAsks_sideDatasets _).bind fun _ =>
      (OnlyAsks.lift _).bind fun _ => .lift _

theorem onlyAsks_compile (style : CompileStyle) (chain : Chain) :
    OnlyAsks (chain.compile style) := by
  have hcolumns : OnlyAsks chain.outputColumns := by
    cases chain with
    | root dataset => exact onlyAsks_columnsOf dataset
    | step parent name s =>
        rw [outputColumns]
        cases s.output with
        | some columns => exact .pure _
        | none => exact .throw _
  exact hcolumns.bind fun _ => .lift _

theorem onlyAsks_asDataset (style : CompileStyle) (chain : Chain) :
    OnlyAsks (chain.asDataset style) :=
  (chain.onlyAsks_compile style).bind fun _ => .pure _

end Chain

/-!
## Sessions
-/

namespace Session

theorem onlyAsks_transform (session : Session) (chain : Chain) (name : String)
    (args : Keyed Argument) (options : StepOptions) :
    OnlyAsks (session.transform chain name args options) :=
  chain.onlyAsks_extend _ _ _ _

theorem onlyAsks_compile (session : Session) (chain : Chain) : OnlyAsks (session.compile chain) :=
  Chain.onlyAsks_compile _ chain

theorem onlyAsks_asDataset (session : Session) (chain : Chain) :
    OnlyAsks (session.asDataset chain) :=
  Chain.onlyAsks_asDataset _ chain

theorem onlyAsks_sql (session : Session) (chain : Chain) (method : RenderMethod) :
    OnlyAsks (session.sql chain method) := by
  have hcompile := session.onlyAsks_compile chain
  cases method with
  | select => exact hcompile.bind fun _ => .pure _
  | table target => exact hcompile.bind fun _ => .pure _
  | view target => exact hcompile.bind fun _ => .pure _
  | views => exact (OnlyAsks.lift _).bind fun _ => .lift _

end Session
end TransformChain
