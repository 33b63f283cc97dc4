import TransformChain.Chain.Basic
import TransformChain.Yaml.Decode

/-!
# Queries

Turns a chain into SQL: one statement with a common table expression for each step or with nested
subqueries, or one view for each step.
-/

namespace TransformChain

inductive CompileStyle where
  | cte
  | nested
deriving Repr, DecidableEq

inductive TableKind where
  | view
  | table
deriving Repr, DecidableEq

/-- What a step reads from: the base dataset, or an earlier step by its name. -/
inductive StepInput where
  | source (dataset : Dataset)
  | step (name : String)
deriving Repr, DecidableEq

structure StepFragment where
  name : String
  transform : String
  sql : String
  input : StepInput
  columns : Option Schema
deriving Repr, DecidableEq

structure CompiledQuery where
  sql : String
  columns : Schema
  style : CompileStyle
  steps : List StepFragment
deriving Repr, DecidableEq

namespace CompileStyle

def name : CompileStyle → String
  | cte => "cte"
  | nested => "nested"

def ofName? (text : String) : Option CompileStyle :=
  if text = "cte" then some cte else if text = "nested" then some nested else none

def parse (text : String) : Except Error CompileStyle :=
  let folded := Text.lowerAscii (Text.trim text)
  match ofName? folded with
  | some style => .ok style
  | none => .error (.config (.unknownStyle folded))

end CompileStyle

namespace TableKind

def keyword : TableKind → String
  | view => "VIEW"
  | table => "TABLE"

end TableKind

namespace StepInput

def label : StepInput → String
  | source dataset => dataset.label
  | step name => name

end StepInput

/-!
## Statements
-/

namespace Sql

def subquery (sql : String) : String :=
  "(\n" ++ sql ++ "\n)"

def finalSelect (columns : Schema) (relation : String) : String :=
  "SELECT " ++ Text.join ", " columns.names ++ "\nFROM " ++ relation

def tableExpression (fragment : StepFragment) : String :=
  fragment.name ++ " AS (\n" ++ fragment.sql ++ "\n)"

def createStatement (kind : TableKind) (target : String) (sql : String) : String :=
  "CREATE OR REPLACE " ++ kind.keyword ++ " " ++ target ++ " AS\n" ++ sql

end Sql

namespace CompiledQuery

def createStatement (query : CompiledQuery) (kind : TableKind) (target : TableName) : String :=
  Sql.createStatement kind target.display query.sql

end CompiledQuery

namespace Chain

/-!
## Fragments
-/

def asInput : Chain → StepInput
  | root dataset => .source dataset
  | step _ name _ => .step name

/-- The steps as they were written when the chain was extended. -/
def fragments : Chain → List StepFragment
  | root _ => []
  | step parent name s =>
      parent.fragments ++
        [⟨name, s.transform.name, s.fragment, parent.asInput, s.output⟩]

/-- The relation that a step is written with: the reference to what it reads, or, where that is
empty, the SQL of the step before. -/
def referredSource (chain : Chain) (reference : StepInput → String)
    (before : List StepFragment) : String :=
  let text := reference chain.asInput
  if text = "" then
    match before.getLast? with
    | some fragment => Sql.subquery fragment.sql
    | none => chain.source.relation
  else
    text

/-- The steps written again, each reading from the reference to what comes before it. -/
def renderSteps (reference : StepInput → String) : Chain → Except Error (List StepFragment)
  | root _ => .ok []
  | step parent name s =>
      match renderSteps reference parent with
      | .error e => .error e
      | .ok before =>
          let source := parent.referredSource reference before
          match s.renderFrom source parent.asInput.label with
          | .error e => .error e
          | .ok rendered =>
              .ok (before ++
                [⟨name, s.transform.name, rendered.sql, parent.asInput, s.output⟩])

/-- The relation text of the base dataset, and nothing for a step. -/
def nestedReference : StepInput → String
  | .source dataset => dataset.relation
  | .step _ => ""

def viewReference (ns : Namespace) : StepInput → String
  | .source dataset => dataset.relation
  | .step name => (ns.table name).display

/-!
## Compilation
-/

def outputColumns : Chain → Asking Schema
  | root dataset => Resolver.columnsOf dataset
  | step _ name s =>
      match s.output with
      | some columns => pure columns
      | none => throw (.schemaUnavailable name (.undeclaredStep s.transform.name))

def withStatement (chain : Chain) (columns : Schema) (steps : List StepFragment) : String :=
  "WITH " ++ Text.join ",\n" (steps.map Sql.tableExpression) ++ "\n" ++
    Sql.finalSelect columns chain.name

def tipSql (steps : List StepFragment) : String :=
  match steps.getLast? with
  | some fragment => fragment.sql
  | none => ""

def compileTo (columns : Schema) (style : CompileStyle) (chain : Chain) :
    Except Error CompiledQuery :=
  if chain.isRoot then
    .ok ⟨Sql.finalSelect columns chain.source.relation, columns, style, []⟩
  else
    match style with
    | .cte => .ok ⟨chain.withStatement columns chain.fragments, columns, style, chain.fragments⟩
    | .nested =>
        match chain.renderSteps nestedReference with
        | .error e => .error e
        | .ok steps =>
            .ok ⟨Sql.finalSelect columns (Sql.subquery (tipSql steps)), columns, style, steps⟩

def compile (style : CompileStyle) (chain : Chain) : Asking CompiledQuery := do
  let columns ← chain.outputColumns
  chain.compileTo columns style

def asDataset (style : CompileStyle) (chain : Chain) : Asking Dataset := do
  let query ← chain.compile style
  return .query chain.name query.sql (some query.columns)

/-- One view for each step, each reading the one before. -/
def viewChain (ns : Namespace) (chain : Chain) : Except Error String :=
  match chain.renderSteps (viewReference ns) with
  | .error e => .error e
  | .ok steps =>
      .ok (Text.join "\n\n" (steps.map fun fragment =>
        Sql.createStatement .view (ns.table fragment.name).display fragment.sql ++ ";"))

end Chain
end TransformChain
