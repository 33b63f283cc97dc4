import TransformChain.Warehouse.Resolver

/-!
# What a resolver remembers

A resolver over a warehouse of any kind, used by anybody in any order, while the warehouse changes
between the uses and with each question.  The record of such a run says what was asked and what was
answered.  Whether a table is looked up in the cache or in the warehouse can be read off the
record: what counts is the last time that its columns were stored or dropped.
-/

namespace TransformChain

/-!
## Stored columns by name
-/

namespace Warehouse

variable {name other : TableName} {entries : List (TableName × α)}

theorem listed?_without_self :
    listed? name (entries.filter fun entry => entry.1 != name) = none := by
  unfold listed?
  rw [Option.map_eq_none_iff, List.find?_eq_none]
  intro entry hentry
  simpa using (List.mem_filter.mp hentry).right

theorem listed?_without_ne (h : other ≠ name) :
    listed? other (entries.filter fun entry => entry.1 != name) = listed? other entries := by
  unfold listed?
  rw [List.find?_filter]
  congr 2
  funext entry
  by_cases hentry : entry.1 = other
  · simp [hentry, h]
  · simp [hentry]

theorem listed?_concat {value : α} :
    listed? other (entries ++ [(name, value)]) =
      (listed? other entries).or (if name = other then some value else none) := by
  unfold listed?
  rw [List.find?_append, List.find?_singleton]
  by_cases h : name = other
  · rw [if_pos (beq_iff_eq.mpr h), if_pos h]
    cases entries.find? (fun entry => entry.1 == other) <;> rfl
  · rw [if_neg (by simp [h]), if_neg h, Option.or_none, Option.or_none]

theorem listed?_stored_self {value : α} :
    listed? name (entries.filter (fun entry => entry.1 != name) ++ [(name, value)]) =
      some value := by
  rw [listed?_concat, listed?_without_self, if_pos rfl]
  rfl

theorem listed?_stored_ne {value : α} (h : other ≠ name) :
    listed? other (entries.filter (fun entry => entry.1 != name) ++ [(name, value)]) =
      listed? other entries := by
  rw [listed?_concat, listed?_without_ne h, if_neg (Ne.symm h), Option.or_none]

end Warehouse

/-- Somebody who is asked for the columns of tables, and may have changed after each question. -/
abbrev Client (ω : Type) := TableName → ω → Except Error Schema × ω

namespace Resolver

/-!
## Resolvers over any warehouse
-/

structure Over (ω : Type) where
  warehouse : ω
  cache : List (TableName × Schema)

def judged (name : TableName) : Except Error Schema → Except Error Schema
  | .error e => .error (unavailable name e)
  | .ok [] => .error (.schemaUnavailable name.display .emptyTable)
  | .ok columns => .ok columns

inductive Operation where
  | tableColumns (name : TableName)
  | columnsOf (dataset : Dataset)
  | prime (name : TableName) (columns : Schema)
  | invalidate (name : TableName)

namespace Over

variable {ω : Type}

def prime (resolver : Over ω) (name : TableName) (columns : Schema) : Over ω :=
  { resolver with
    cache := resolver.cache.filter (fun entry => entry.1 != name) ++ [(name, columns)] }

def invalidate (resolver : Over ω) (name : TableName) : Over ω :=
  { resolver with cache := resolver.cache.filter (fun entry => entry.1 != name) }

def tableColumns (client : Client ω) (name : TableName) (resolver : Over ω) :
    Except Error Schema × Over ω :=
  match Warehouse.listed? name resolver.cache with
  | some columns => (.ok columns, resolver)
  | none =>
      let (reply, warehouse) := client name resolver.warehouse
      match judged name reply with
      | .error e => (.error e, { resolver with warehouse := warehouse })
      | .ok columns => (.ok columns, { resolver with warehouse := warehouse }.prime name columns)

def columnsOf (client : Client ω) (dataset : Dataset) (resolver : Over ω) :
    Except Error Schema × Over ω :=
  match dataset.columns, dataset with
  | some columns, _ => (.ok columns, resolver)
  | none, .table name _ => resolver.tableColumns client name
  | none, .query name _ _ => (.error (.schemaUnavailable name .undeclaredQuery), resolver)

def use (client : Client ω) (operation : Operation) (resolver : Over ω) :
    Option (Except Error Schema) × Over ω :=
  match operation with
  | .tableColumns name =>
      let (answer, next) := resolver.tableColumns client name
      (some answer, next)
  | .columnsOf dataset =>
      let (answer, next) := resolver.columnsOf client dataset
      (some answer, next)
  | .prime name columns => (none, resolver.prime name columns)
  | .invalidate name => (none, resolver.invalidate name)

end Over

def use (operation : Operation) (resolver : Resolver) : Option (Except Error Schema) × Resolver :=
  match operation with
  | .tableColumns name =>
      let (answer, next) := (tableColumns name).run resolver
      (some answer, next)
  | .columnsOf dataset =>
      let (answer, next) := (columnsOf dataset).run resolver
      (some answer, next)
  | .prime name columns => (none, resolver.prime name columns)
  | .invalidate name => (none, resolver.invalidate name)

def asOver (resolver : Resolver) : Over Warehouse :=
  ⟨resolver.warehouse, resolver.cache⟩

theorem tableColumns_asOver (name : TableName) (resolver : Resolver) :
    resolver.asOver.tableColumns (fun name warehouse => warehouse.columns name) name =
      (((tableColumns name).run resolver).1, ((tableColumns name).run resolver).2.asOver) := by
  change _ = ((tableColumns name resolver).1, (tableColumns name resolver).2.asOver)
  unfold tableColumns Over.tableColumns
  change (match Warehouse.listed? name resolver.cache with | some _ => _ | none => _) = _
  cases Warehouse.listed? name resolver.cache with
  | some columns => rfl
  | none =>
      simp only [ask, asOver]
      rcases resolver.warehouse.columns name with ⟨reply, warehouse⟩
      rcases reply with e | columns
      · rfl
      · cases columns <;> rfl

theorem use_asOver (operation : Operation) (resolver : Resolver) :
    resolver.asOver.use (fun name warehouse => warehouse.columns name) operation =
      ((use operation resolver).1, (use operation resolver).2.asOver) := by
  cases operation with
  | tableColumns name =>
      simp only [Over.use, use, tableColumns_asOver]
      rfl
  | columnsOf dataset =>
      cases dataset with
      | table name columns =>
          cases columns with
          | some columns => rfl
          | none =>
              simp only [Over.use, use, Over.columnsOf, Dataset.columns, tableColumns_asOver]
              rfl
      | query name sql columns => cases columns <;> rfl
  | prime name columns => rfl
  | invalidate name => rfl

/-!
## Records
-/

/-- What a use leaves in the record: the questions that the warehouse was asked with its replies,
and the answer that the caller got. -/
structure Entry where
  operation : Operation
  questions : List (TableName × Except Error Schema)
  answer : Option (Except Error Schema)

/-- A use of the resolver, before which the warehouse has changed by itself. -/
structure Moment (ω : Type) where
  change : ω → ω
  operation : Operation

def recording {ω : Type} (client : Client ω) :
    Client (ω × List (TableName × Except Error Schema)) :=
  fun name (warehouse, asked) =>
    let (reply, next) := client name warehouse
    (reply, (next, asked ++ [(name, reply)]))

namespace Over

variable {ω : Type}

def step (client : Client ω) (moment : Moment ω) (resolver : Over ω) : Entry × Over ω :=
  let (answer, next) :=
    use (recording client) moment.operation
      ⟨(moment.change resolver.warehouse, []), resolver.cache⟩
  (⟨moment.operation, next.warehouse.2, answer⟩, ⟨next.warehouse.1, next.cache⟩)

def run (client : Client ω) : List (Moment ω) → Over ω → List Entry × Over ω
  | [], resolver => ([], resolver)
  | moment :: rest, resolver =>
      let (entry, next) := resolver.step client moment
      let (entries, last) := next.run client rest
      (entry :: entries, last)

end Over

/-!
## What the record says
-/

namespace Entry

def Stores (entry : Entry) (name : TableName) (columns : Schema) : Prop :=
  entry.operation = .prime name columns ∨ (name, .ok columns) ∈ entry.questions ∧ columns ≠ []

def Settles (entry : Entry) (name : TableName) : Prop :=
  entry.operation = .invalidate name ∨ ∃ columns, entry.Stores name columns

end Entry

/-- The columns were stored for the table, and neither dropped nor replaced since. -/
def Remembered (past : List Entry) (name : TableName) (columns : Schema) : Prop :=
  ∃ older entry newer, past = older ++ entry :: newer ∧ entry.Stores name columns ∧
    ∀ later ∈ newer, ¬later.Settles name

/-- A reply with columns is handed on; without columns, or with a failure for a reply, the schema
is not available. -/
def HandsOn (reply answer : Except Error Schema) : Prop :=
  (∃ columns, columns ≠ [] ∧ reply = .ok columns ∧ answer = .ok columns) ∨
    (reply = .ok [] ∨ ∃ e, reply = .error e) ∧
      ∃ dataset reason, answer = .error (.schemaUnavailable dataset reason)

namespace Entry

/-- The table is looked up: what is remembered is answered and nobody is asked, or else there is one
question, for the table, whose reply is handed on. -/
def LooksUp (entry : Entry) (past : List Entry) (name : TableName) : Prop :=
  (∃ columns, Remembered past name columns ∧ entry.questions = [] ∧
    entry.answer = some (.ok columns)) ∨
  (∀ columns, ¬Remembered past name columns) ∧ ∃ reply answer,
    entry.questions = [(name, reply)] ∧ entry.answer = some answer ∧ HandsOn reply answer

def Lawful (entry : Entry) (past : List Entry) : Prop :=
  match entry.operation with
  | .tableColumns name => entry.LooksUp past name
  | .columnsOf dataset =>
      match dataset.columns, dataset with
      | some columns, _ => entry.questions = [] ∧ entry.answer = some (.ok columns)
      | none, .table name _ => entry.LooksUp past name
      | none, .query _ _ _ =>
          entry.questions = [] ∧
            ∃ label reason, entry.answer = some (.error (.schemaUnavailable label reason))
  | .prime _ _ => entry.questions = [] ∧ entry.answer = none
  | .invalidate _ => entry.questions = [] ∧ entry.answer = none

end Entry

theorem remembered_concat {past : List Entry} {entry : Entry} {name : TableName}
    {columns : Schema} :
    Remembered (past ++ [entry]) name columns ↔
      entry.Stores name columns ∨ Remembered past name columns ∧ ¬entry.Settles name := by
  constructor
  · rintro ⟨older, found, newer, hpast, hstores, hnewer⟩
    rcases List.eq_nil_or_concat newer with rfl | ⟨before, last, rfl⟩
    · rcases List.append_inj' hpast rfl with ⟨-, hlast⟩
      cases hlast
      exact Or.inl hstores
    · have hsplit : past ++ [entry] = (older ++ found :: before) ++ [last] := by
        rw [hpast]
        simp
      rcases List.append_inj' hsplit rfl with ⟨rfl, hlast⟩
      cases hlast
      refine Or.inr ⟨⟨older, found, before, rfl, hstores, ?_⟩, hnewer _ (by simp)⟩
      intro later hlater
      exact hnewer later (by simp [hlater])
  · rintro (hstores | ⟨⟨older, found, newer, rfl, hstores, hnewer⟩, hentry⟩)
    · exact ⟨past, entry, [], rfl, hstores, by simp⟩
    · refine ⟨older, found, newer ++ [entry], by simp, hstores, ?_⟩
      intro later hlater
      rcases List.mem_append.mp hlater with hlater | hlater
      · exact hnewer later hlater
      · rw [List.mem_singleton.mp hlater]
        exact hentry

/-!
## The cache along a run
-/

def Over.Matches {ω : Type} (resolver : Over ω) (past : List Entry) : Prop :=
  ∀ name columns,
    Warehouse.listed? name resolver.cache = some columns ↔ Remembered past name columns

section Steps

variable {ω : Type} {resolver next : Over ω} {past : List Entry} {entry : Entry}
variable {name : TableName} {columns : Schema}

theorem Over.Matches.kept (h : resolver.Matches past) (hcache : next.cache = resolver.cache)
    (hentry : ∀ other, ¬entry.Settles other) : next.Matches (past ++ [entry]) := by
  intro other found
  rw [remembered_concat, hcache, h other found]
  constructor
  · intro hfound
    exact Or.inr ⟨hfound, hentry other⟩
  · rintro (hstores | ⟨hfound, -⟩)
    · exact absurd (Or.inr ⟨found, hstores⟩) (hentry other)
    · exact hfound

theorem Over.Matches.stored (name : TableName) (columns : Schema) (h : resolver.Matches past)
    (hcache : next.cache = (resolver.prime name columns).cache)
    (hstores : ∀ other found, entry.Stores other found ↔ other = name ∧ found = columns)
    (hkeeps : ∀ other, entry.operation ≠ .invalidate other) : next.Matches (past ++ [entry]) := by
  intro other found
  rw [remembered_concat, hcache, hstores]
  by_cases hother : other = name
  · subst hother
    have hsettles : entry.Settles other := Or.inr ⟨columns, (hstores other columns).mpr ⟨rfl, rfl⟩⟩
    simp only [Over.prime, Warehouse.listed?_stored_self, hsettles, not_true_eq_false, and_false,
      or_false, true_and, Option.some.injEq]
    exact eq_comm
  · have hsettles : ¬entry.Settles other := by
      rintro (hdrops | ⟨given, hgiven⟩)
      · exact hkeeps other hdrops
      · exact hother ((hstores other given).mp hgiven).left
    simp only [Over.prime, Warehouse.listed?_stored_ne hother, h other found, hother, hsettles,
      false_and, false_or, not_false_eq_true, and_true]

theorem Over.Matches.dropped (h : resolver.Matches past)
    (hcache : next.cache = (resolver.invalidate name).cache)
    (hoperation : entry.operation = .invalidate name) (hquestions : entry.questions = []) :
    next.Matches (past ++ [entry]) := by
  have hstores : ∀ other found, ¬entry.Stores other found := by
    rintro other found (hprime | ⟨hasked, -⟩)
    · rw [hoperation] at hprime
      cases hprime
    · rw [hquestions] at hasked
      cases hasked
  intro other found
  rw [remembered_concat, hcache]
  by_cases hother : other = name
  · subst hother
    simp only [Over.invalidate, Warehouse.listed?_without_self, hstores, false_or]
    constructor
    · intro hnone
      cases hnone
    · rintro ⟨-, hentry⟩
      exact absurd (Or.inl hoperation) hentry
  · have hsettles : ¬entry.Settles other := by
      rintro (hdrops | ⟨given, hgiven⟩)
      · rw [hoperation] at hdrops
        cases hdrops
        exact hother rfl
      · exact hstores other given hgiven
    simp only [Over.invalidate, Warehouse.listed?_without_ne hother, h other found, hstores,
      hsettles, false_or, not_false_eq_true, and_true]

theorem judged_cases (name : TableName) (reply : Except Error Schema) :
    (∃ columns, columns ≠ [] ∧ reply = .ok columns ∧ judged name reply = .ok columns) ∨
      (reply = .ok [] ∨ ∃ e, reply = .error e) ∧
        ∃ dataset reason, judged name reply = .error (.schemaUnavailable dataset reason) := by
  cases reply with
  | ok columns =>
      cases columns with
      | nil => exact Or.inr ⟨Or.inl rfl, _, _, rfl⟩
      | cons column rest => exact Or.inl ⟨_, List.cons_ne_nil _ _, rfl, rfl⟩
  | error e =>
      refine Or.inr ⟨Or.inr ⟨e, rfl⟩, ?_⟩
      cases e <;> exact ⟨_, _, rfl⟩

theorem lookup_step {client : Client ω} {moment : Moment ω} (h : resolver.Matches past)
    (hoperation : (∀ other, moment.operation ≠ .invalidate other) ∧
      ∀ other found, moment.operation ≠ .prime other found)
    (huse : ∀ asked : Over (ω × List (TableName × Except Error Schema)),
      asked.use (recording client) moment.operation =
        (some (asked.tableColumns (recording client) name).1,
          (asked.tableColumns (recording client) name).2)) :
    (resolver.step client moment).1.LooksUp past name ∧
      (resolver.step client moment).2.Matches (past ++ [(resolver.step client moment).1]) := by
  unfold Over.step
  rw [huse]
  simp only [Over.tableColumns]
  cases hlisted : Warehouse.listed? name resolver.cache with
  | some columns =>
      refine ⟨Or.inl ⟨columns, (h name columns).mp hlisted, rfl, rfl⟩, h.kept rfl ?_⟩
      rintro other (hdrops | ⟨found, hprime | ⟨hasked, -⟩⟩)
      · exact hoperation.left other hdrops
      · exact hoperation.right other found hprime
      · cases hasked
  | none =>
      have hforgotten : ∀ columns, ¬Remembered past name columns := by
        intro columns hremembered
        rw [(h name columns).mpr hremembered] at hlisted
        cases hlisted
      simp only [recording]
      rcases client name (moment.change resolver.warehouse) with ⟨reply, warehouse⟩
      rcases judged_cases name reply with
        ⟨columns, hne, rfl, hjudged⟩ | ⟨hreply, label, reason, hjudged⟩
      · simp only [hjudged]
        refine ⟨Or.inr ⟨hforgotten, _, _, rfl, rfl, Or.inl ⟨columns, hne, rfl, rfl⟩⟩, ?_⟩
        refine h.stored name columns rfl ?_ hoperation.left
        intro other found
        constructor
        · rintro (hprime | ⟨hasked, -⟩)
          · exact absurd hprime (hoperation.right other found)
          · cases List.mem_singleton.mp hasked
            exact ⟨rfl, rfl⟩
        · rintro ⟨rfl, rfl⟩
          exact Or.inr ⟨List.mem_singleton.mpr rfl, hne⟩
      · simp only [hjudged]
        refine ⟨Or.inr ⟨hforgotten, _, _, rfl, rfl, Or.inr ⟨hreply, label, reason, rfl⟩⟩,
          h.kept rfl ?_⟩
        rintro other (hdrops | ⟨found, hprime | ⟨hasked, hne⟩⟩)
        · exact hoperation.left other hdrops
        · exact hoperation.right other found hprime
        · cases List.mem_singleton.mp hasked
          rcases hreply with hempty | ⟨e, herror⟩
          · cases hempty
            exact hne rfl
          · cases herror

theorem step_lawful (client : Client ω) (moment : Moment ω) (h : resolver.Matches past) :
    (resolver.step client moment).1.Lawful past ∧
      (resolver.step client moment).2.Matches (past ++ [(resolver.step client moment).1]) := by
  rcases moment with ⟨change, operation⟩
  have hquiet : ∀ {dataset : Dataset} {answer : Option (Except Error Schema)} {other : TableName},
      ¬Entry.Settles ⟨.columnsOf dataset, [], answer⟩ other := by
    rintro dataset answer other (hdrops | ⟨found, hprime | ⟨hasked, -⟩⟩)
    · cases hdrops
    · cases hprime
    · cases hasked
  cases operation with
  | tableColumns name => exact lookup_step h ⟨nofun, nofun⟩ fun _ => rfl
  | columnsOf dataset =>
      cases dataset with
      | table name columns =>
          cases columns with
          | none => exact lookup_step h ⟨nofun, nofun⟩ fun _ => rfl
          | some columns => exact ⟨⟨rfl, rfl⟩, h.kept rfl fun _ => hquiet⟩
      | query name sql columns =>
          cases columns with
          | none => exact ⟨⟨rfl, _, _, rfl⟩, h.kept rfl fun _ => hquiet⟩
          | some columns => exact ⟨⟨rfl, rfl⟩, h.kept rfl fun _ => hquiet⟩
  | prime name columns =>
      refine ⟨⟨rfl, rfl⟩, h.stored name columns rfl ?_ nofun⟩
      intro other found
      constructor
      · rintro (hprime | ⟨hasked, -⟩)
        · cases hprime
          exact ⟨rfl, rfl⟩
        · cases hasked
      · rintro ⟨rfl, rfl⟩
        exact Or.inl rfl
  | invalidate name => exact ⟨⟨rfl, rfl⟩, h.dropped rfl rfl rfl⟩

/-- By induction on the moments: the entries so far are the past of the next one. -/
theorem run_lawful (client : Client ω) (moments : List (Moment ω)) (h : resolver.Matches past) :
    (∀ older entry later, (resolver.run client moments).1 = older ++ entry :: later →
      entry.Lawful (past ++ older)) ∧
    (resolver.run client moments).2.Matches (past ++ (resolver.run client moments).1) := by
  induction moments generalizing resolver past with
  | nil =>
      constructor
      · intro older entry later hentries
        simp [Over.run] at hentries
      · simpa [Over.run] using h
  | cons moment rest ih =>
      rcases step_lawful client moment h with ⟨hlawful, hnext⟩
      rcases ih hnext with ⟨hrest, hlast⟩
      simp only [List.append_assoc, List.singleton_append] at hrest hlast
      refine ⟨?_, hlast⟩
      intro older entry later hentries
      change (resolver.step client moment).1 ::
        ((resolver.step client moment).2.run client rest).1 = _ at hentries
      cases older with
      | nil =>
          rw [List.nil_append, List.cons.injEq] at hentries
          rw [List.append_nil, ← hentries.left]
          exact hlawful
      | cons first others =>
          rw [List.cons_append, List.cons.injEq] at hentries
          rw [← hentries.left]
          exact hrest others entry later hentries.right

end Steps

/-!
## One table and the others
-/

/-- The table whose columns an operation is about, unless it can do without the cache. -/
def Operation.table? : Operation → Option TableName
  | .tableColumns name => some name
  | .columnsOf (.table name none) => some name
  | .columnsOf _ => none
  | .prime name _ => some name
  | .invalidate name => some name

theorem Over.tableColumns_other {ω : Type} (client : Client ω) {name other : TableName}
    (h : name ≠ other) (resolver : Over ω) :
    Warehouse.listed? other (resolver.tableColumns client name).2.cache =
      Warehouse.listed? other resolver.cache := by
  unfold Over.tableColumns
  cases Warehouse.listed? name resolver.cache with
  | some columns => rfl
  | none =>
      rcases client name resolver.warehouse with ⟨reply, warehouse⟩
      dsimp only
      cases judged name reply with
      | error e => rfl
      | ok columns => exact Warehouse.listed?_stored_ne (Ne.symm h)

theorem Over.use_other {ω : Type} (client : Client ω) {operation : Operation} {other : TableName}
    (h : operation.table? ≠ some other) (resolver : Over ω) :
    Warehouse.listed? other (resolver.use client operation).2.cache =
      Warehouse.listed? other resolver.cache := by
  cases operation with
  | tableColumns name => exact Over.tableColumns_other client (fun heq => h (congrArg some heq)) _
  | columnsOf dataset =>
      cases dataset with
      | table name columns =>
          cases columns with
          | none => exact Over.tableColumns_other client (fun heq => h (congrArg some heq)) _
          | some columns => rfl
      | query name sql columns => cases columns <;> rfl
  | prime name columns =>
      exact Warehouse.listed?_stored_ne fun heq => h (congrArg some heq.symm)
  | invalidate name =>
      exact Warehouse.listed?_without_ne fun heq => h (congrArg some heq.symm)

theorem Over.use_of_table?_none {ω : Type} (client : Client ω) {operation : Operation}
    (h : operation.table? = none) (resolver : Over ω) :
    (resolver.use client operation).2 = resolver := by
  cases operation with
  | tableColumns name => cases h
  | columnsOf dataset =>
      cases dataset with
      | table name columns =>
          cases columns with
          | none => cases h
          | some columns => rfl
      | query name sql columns => cases columns <;> rfl
  | prime name columns => cases h
  | invalidate name => cases h

/-!
## Every run
-/

/-- However a resolver is used and however its warehouse changes meanwhile, each answer follows from
the record of what came before: a table whose columns are remembered is answered from the cache
without a question, any other with exactly one question, whose reply is kept only if it has columns.
In the end the cache holds what is remembered.  A use about one table leaves the others alone, and
one about none leaves everything.  The resolver over known tables is a case of this. -/
theorem answers_follow_record {ω : Type} (client : Client ω) (moments : List (Moment ω))
    (warehouse : ω) :
    (∀ past entry later,
      (Over.run client moments ⟨warehouse, []⟩).1 = past ++ entry :: later →
        entry.Lawful past) ∧
    (∀ name columns,
      Warehouse.listed? name (Over.run client moments ⟨warehouse, []⟩).2.cache = some columns ↔
        Remembered (Over.run client moments ⟨warehouse, []⟩).1 name columns) ∧
    (∀ (operation : Operation) (resolver : Over ω) (other : TableName),
      operation.table? ≠ some other →
        Warehouse.listed? other (resolver.use client operation).2.cache =
          Warehouse.listed? other resolver.cache) ∧
    (∀ (operation : Operation) (resolver : Over ω), operation.table? = none →
      (resolver.use client operation).2 = resolver) ∧
    ∀ (operation : Operation) (resolver : Resolver),
      resolver.asOver.use (fun name warehouse => warehouse.columns name) operation =
        ((use operation resolver).1, (use operation resolver).2.asOver) := by
  have hstart : Over.Matches (⟨warehouse, []⟩ : Over ω) [] := by
    intro name columns
    constructor
    · intro h
      cases h
    · rintro ⟨older, entry, newer, hpast, -⟩
      simp at hpast
  rcases run_lawful client moments hstart with ⟨hlawful, hlast⟩
  exact ⟨hlawful, hlast, fun _ resolver _ h => Over.use_other client h resolver,
    fun _ resolver h => Over.use_of_table?_none client h resolver, use_asOver⟩

def recovering : Client Nat :=
  fun _ questions =>
    (if questions = 0 then .error (.warehouse "down") else .ok [⟨"ID", none⟩], questions + 1)

def lookingUp : Moment Nat :=
  ⟨id, .tableColumns ⟨"A", "B", "C"⟩⟩

theorem record_of_recovering :
    ∃ first second third,
      (Over.run recovering [lookingUp, lookingUp, lookingUp] ⟨0, []⟩).1 = [first, second, third] ∧
      first.questions.length = 1 ∧ second.questions.length = 1 ∧ third.questions = [] ∧
      third.answer = some (.ok [⟨"ID", none⟩]) ∧
      third.LooksUp [first, second] ⟨"A", "B", "C"⟩ :=
  ⟨_, _, _, rfl, rfl, rfl, rfl, rfl,
    (answers_follow_record recovering [lookingUp, lookingUp, lookingUp] 0).left [_, _] _ [] rfl⟩

end Resolver
end TransformChain
