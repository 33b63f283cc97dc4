import TransformChain.Argument
import TransformChain.Chain.Basic
import TransformChain.Chain.Extension
import TransformChain.Chain.Query
import TransformChain.Command.Options
import TransformChain.Command.Run
import TransformChain.Command.Usage
import TransformChain.Config
import TransformChain.Dataset
import TransformChain.Decimal.Reading
import TransformChain.Decimal.Shortest
import TransformChain.Error
import TransformChain.Export.Models
import TransformChain.Export.Statement
import TransformChain.Failure
import TransformChain.Json.Reading
import TransformChain.Json.Writing
import TransformChain.Keyed
import TransformChain.Literal
import TransformChain.Main
import TransformChain.Number.Nearest
import TransformChain.Number.Remainder
import TransformChain.Parser
import TransformChain.Pipeline.Basic
import TransformChain.Pipeline.Building
import TransformChain.Proofs.Chain.AppliedTexts
import TransformChain.Proofs.Chain.Containment
import TransformChain.Proofs.Chain.Fragments
import TransformChain.Proofs.Chain.Naming
import TransformChain.Proofs.Chain.Nesting
import TransformChain.Proofs.Chain.Outputs
import TransformChain.Proofs.Chain.Projection
import TransformChain.Proofs.Chain.Reachable
import TransformChain.Proofs.Chain.Referring
import TransformChain.Proofs.Chain.ViewStatements
import TransformChain.Proofs.Chain.Views
import TransformChain.Proofs.Chain.Workspaces
import TransformChain.Proofs.Export.Headers
import TransformChain.Proofs.Export.Projects
import TransformChain.Proofs.Export.Tags
import TransformChain.Proofs.Keyed.Entries
import TransformChain.Proofs.Library.Applying
import TransformChain.Proofs.Library.Arguments
import TransformChain.Proofs.Library.Checking
import TransformChain.Proofs.Library.Clauses
import TransformChain.Proofs.Library.Columns
import TransformChain.Proofs.Library.Conditions
import TransformChain.Proofs.Library.CustomText
import TransformChain.Proofs.Library.Dates
import TransformChain.Proofs.Library.Grouping
import TransformChain.Proofs.Library.Joining
import TransformChain.Proofs.Library.Overwriting
import TransformChain.Proofs.Library.Partners
import TransformChain.Proofs.Library.Phrases
import TransformChain.Proofs.Library.Schemas
import TransformChain.Proofs.Library.SelectList
import TransformChain.Proofs.Library.Selection
import TransformChain.Proofs.Library.Separators
import TransformChain.Proofs.Library.Trees
import TransformChain.Proofs.Number.Rounding
import TransformChain.Proofs.Parser.Accepting
import TransformChain.Proofs.Parser.Progress
import TransformChain.Proofs.Parser.Reading
import TransformChain.Proofs.Pipeline.Names
import TransformChain.Proofs.Pipeline.Rearranging
import TransformChain.Proofs.Pipeline.Results
import TransformChain.Proofs.Session.OutputNames
import TransformChain.Proofs.Session.Requests
import TransformChain.Proofs.Sql.Literals
import TransformChain.Proofs.Sql.Scanning
import TransformChain.Proofs.Sql.Statements
import TransformChain.Proofs.Storage.Writing
import TransformChain.Proofs.Table.Names
import TransformChain.Proofs.Template.BlockStructure
import TransformChain.Proofs.Template.Bracketing
import TransformChain.Proofs.Template.ByteScanning
import TransformChain.Proofs.Template.Checks
import TransformChain.Proofs.Template.Closure
import TransformChain.Proofs.Template.Comparison
import TransformChain.Proofs.Template.Cutting
import TransformChain.Proofs.Template.Declaring
import TransformChain.Proofs.Template.Descent
import TransformChain.Proofs.Template.Discipline
import TransformChain.Proofs.Template.EmbeddedTags
import TransformChain.Proofs.Template.ExprReading
import TransformChain.Proofs.Template.Failing
import TransformChain.Proofs.Template.Hoisting
import TransformChain.Proofs.Template.Knowledge
import TransformChain.Proofs.Template.Levels
import TransformChain.Proofs.Template.Lexemes
import TransformChain.Proofs.Template.Locals
import TransformChain.Proofs.Template.Operands
import TransformChain.Proofs.Template.Parametric
import TransformChain.Proofs.Template.ParsingEnds
import TransformChain.Proofs.Template.Partner
import TransformChain.Proofs.Template.Points
import TransformChain.Proofs.Template.Printing
import TransformChain.Proofs.Template.Refusal
import TransformChain.Proofs.Template.Relating
import TransformChain.Proofs.Template.Rules
import TransformChain.Proofs.Template.StatementReading
import TransformChain.Proofs.Template.Steady
import TransformChain.Proofs.Template.TagScanning
import TransformChain.Proofs.Template.TemplateReading
import TransformChain.Proofs.Template.Termination
import TransformChain.Proofs.Template.TreeBuilding
import TransformChain.Proofs.Template.Trimming
import TransformChain.Proofs.Template.TwoRuns
import TransformChain.Proofs.Template.Yields
import TransformChain.Proofs.Text.Bytes
import TransformChain.Proofs.Text.Cleansing
import TransformChain.Proofs.Text.Identifiers
import TransformChain.Proofs.Text.Splicing
import TransformChain.Proofs.Text.Splitting
import TransformChain.Proofs.Text.Words
import TransformChain.Proofs.Transform.Acceptance
import TransformChain.Proofs.Transform.Binding
import TransformChain.Proofs.Transform.Registering
import TransformChain.Proofs.Transform.Shapes
import TransformChain.Proofs.Value.Integers
import TransformChain.Proofs.Value.Ordering
import TransformChain.Proofs.Warehouse.Asking
import TransformChain.Proofs.Warehouse.History
import TransformChain.Proofs.Warehouse.Learning
import TransformChain.Proofs.Yaml.Atoms
import TransformChain.Proofs.Yaml.Blocks
import TransformChain.Proofs.Yaml.Contents
import TransformChain.Proofs.Yaml.Documents
import TransformChain.Proofs.Yaml.LiteralScalars
import TransformChain.Proofs.Yaml.PlainScalars
import TransformChain.Proofs.Yaml.QuotedScalars
import TransformChain.Proofs.Yaml.Scanning
import TransformChain.Schema
import TransformChain.Session
import TransformChain.Storage
import TransformChain.Table
import TransformChain.Template.Action
import TransformChain.Template.Evaluator
import TransformChain.Template.Expr
import TransformChain.Template.Function
import TransformChain.Template.Grammar
import TransformChain.Template.Operation
import TransformChain.Template.Rendering
import TransformChain.Template.Statement
import TransformChain.Template.Tag
import TransformChain.Template.Tree
import TransformChain.Text.Blank
import TransformChain.Text.Case
import TransformChain.Text.CaseTable
import TransformChain.Text.Identifier
import TransformChain.Text.Join
import TransformChain.Text.Word
import TransformChain.Text.WordTable
import TransformChain.Transform.Basic
import TransformChain.Transform.Binding
import TransformChain.Transform.Library
import TransformChain.Transform.Manifest
import TransformChain.Transform.Registry
import TransformChain.Value
import TransformChain.Warehouse.Basic
import TransformChain.Warehouse.Resolver
import TransformChain.Yaml.Atom
import TransformChain.Yaml.Cursor
import TransformChain.Yaml.Decode
import TransformChain.Yaml.Node
import TransformChain.Yaml.Scalar
import TransformChain.Yaml.Token
import TransformChain.Yaml.Writing
