import TransformChain.Value

/-!
# Errors

Everything that can go wrong while a chain of transforms is read, bound, rendered or run, by
cause.  The wording of each cause is given once, by its `message`.
-/

namespace TransformChain

/-- The shapes of arguments.  A parameter of shape `any` takes every one of the others. -/
inductive Shape where
  | scalar
  | list
  | mapping
  | dataset
  | any
deriving Repr, DecidableEq

def Shape.name : Shape → String
  | .scalar => "scalar"
  | .list => "list"
  | .mapping => "mapping"
  | .dataset => "dataset"
  | .any => "any"

/-!
## Causes
-/

inductive NameFault where
  | notQualified
  | notNamespace
  | namespaceMissing
  | malformed
deriving Repr, DecidableEq

inductive SchemaFault where
  | unlisted
  | emptyTable
  | undeclaredQuery
  | undeclaredStep (template : String)
  | reported (text : String)
deriving Repr, DecidableEq

inductive SyntaxFault where
  | unclosedTag (near : String)
  | incomplete (source : String)
  | cannotParse (source near : String)
  | unexpectedBlock (keyword : String)
  | unexpectedEnd (expected : String)
  | repeatedMacro (name : String)
  | reservedParameter
  | repeatedParameter (name : String)
deriving Repr, DecidableEq

inductive EvaluationFault where
  | undefined (name : String)
  | notIterable (kind : Value.Kind)
  | notUnpackable (kind : Value.Kind) (first second : String)
  | noAttribute (kind : Value.Kind) (name : String)
  | indexOutOfRange (index : Int64)
  | notIndexable (base index : Value.Kind)
  | negationOverflow (i : Int64)
  | notNegatable (kind : Value.Kind)
  | unknownTest (name : String)
  | notComparable (left right : Value.Kind)
  | needleNotString (kind : Value.Kind)
  | notSearchable (kind : Value.Kind)
  | divisionByZero
  | moduloByZero
  | moduloOverflow (a b : Int64)
  | badOperands (left right : Value.Kind)
  | notCallable
  | nestingTooDeep
  | callsWithoutEnd
  | tooManyArguments (macroName : String) (expected found : Nat)
  | unknownMacroParameter (macroName name : String)
  | argumentMissing (function : String)
  | exclusiveNames
  | notOutputColumns (kind : Value.Kind)
  | notDataset (kind : Value.Kind)
  | notDatasetArgument (text : String)
  | macroInText
  | noLength (kind : Value.Kind)
  | notListable (kind : Value.Kind)
  | unknownFilter (name : String)
  | noMethod (kind : Value.Kind) (name : String)
deriving Repr, DecidableEq

inductive ConfigFault where
  | unknownStyle (text : String)
  | noOutputNamespace (name : String)
  | badManifest
  | badCatalog
  | badSettings
  | bodyMissing (name : String)
  | bodyUnreadable (path : String)
  | settingsUnreadable (path : String)
deriving Repr, DecidableEq

/-- A failure, with the template, argument, column or dataset that caused it. -/
inductive Error where
  | unknownTransform (name : String)
  | duplicateTemplate (name : String)
  | missingArgument (template argument : String)
  | unexpectedArgument (template argument : String)
  | argumentShape (template argument : String) (expected found : Shape)
  | mutuallyExclusiveArguments (template first second : String)
  | schemaUnavailable (dataset : String) (reason : SchemaFault)
  | duplicateColumn (template column : String)
  | invalidColumnReference (template column dataset : String)
  | templateSyntax (template : String) (fault : SyntaxFault)
  | templateEvaluation (template : String) (fault : EvaluationFault)
  | templateAborted (template text : String)
  | emptyRender (template : String)
  | aliasConflict (name : String)
  | invalidAlias (name : String)
  | invalidTableName (name : String) (reason : NameFault)
  | warehouse (text : String)
  | riskySql (keyword : String)
  | config (fault : ConfigFault)
  | io
deriving Repr, DecidableEq

/-!
## Wording
-/

def NameFault.message : NameFault → String
  | notQualified => "expected DATABASE.SCHEMA.TABLE"
  | notNamespace => "expected a DATABASE.SCHEMA namespace"
  | namespaceMissing => "partial table name requires a default namespace"
  | malformed => "not a well-formed table name"

def SchemaFault.message : SchemaFault → String
  | unlisted => "no column list is known for this dataset"
  | emptyTable => "the warehouse reports no columns; does the table exist?"
  | undeclaredQuery => "the query declares no output columns"
  | undeclaredStep template =>
      "transform " ++ template ++ " declares no output columns; pass output_columns"
  | reported text => text

def ticked (text : String) : String :=
  "\x60" ++ text ++ "\x60"

def blockTag (keyword : String) : String :=
  "\x7b% " ++ keyword ++ " %\x7d"

def SyntaxFault.message : SyntaxFault → String
  | unclosedTag near => "unclosed tag near " ++ ticked near
  | incomplete source => "incomplete expression " ++ ticked source
  | cannotParse source near => "cannot parse " ++ ticked source ++ " near " ++ ticked near
  | unexpectedBlock keyword => "unexpected " ++ blockTag keyword
  | unexpectedEnd expected => "unexpected end of template, expected " ++ blockTag expected
  | repeatedMacro name => "macro " ++ name ++ " is defined twice"
  | reservedParameter => "parameter name 'source_table' is reserved"
  | repeatedParameter name => "parameter '" ++ name ++ "' is declared twice"

def EvaluationFault.message : EvaluationFault → String
  | undefined name => "'" ++ name ++ "' is undefined"
  | notIterable kind => "cannot iterate over a " ++ kind.name
  | notUnpackable kind first second =>
      "cannot unpack " ++ kind.name ++ " into " ++ first ++ ", " ++ second
  | noAttribute kind name => kind.name ++ " has no attribute '" ++ name ++ "'"
  | indexOutOfRange index => "list index " ++ Value.intText index ++ " out of range"
  | notIndexable base index => "cannot index a " ++ base.name ++ " with a " ++ index.name
  | negationOverflow i => "cannot negate " ++ Value.intText i
  | notNegatable kind => "cannot negate a " ++ kind.name
  | unknownTest name => "unknown test '" ++ name ++ "'"
  | notComparable left right => "cannot compare " ++ left.name ++ " with " ++ right.name
  | needleNotString kind => "'in <string>' requires a string, not a " ++ kind.name
  | notSearchable kind => "a " ++ kind.name ++ " cannot be searched with 'in'"
  | divisionByZero => "division by zero"
  | moduloByZero => "modulo by zero"
  | moduloOverflow a b => Value.intText a ++ " % " ++ Value.intText b ++ " overflows"
  | badOperands left right =>
      "unsupported operand types " ++ left.name ++ " and " ++ right.name
  | notCallable => "expression is not callable"
  | nestingTooDeep => "nesting deeper than 32 levels"
  | callsWithoutEnd => "calls nest without end"
  | tooManyArguments macroName expected found =>
      "macro " ++ macroName ++ " takes " ++ Decimal.digitText expected ++ " arguments, got " ++
        Decimal.digitText found
  | unknownMacroParameter macroName name =>
      "macro " ++ macroName ++ " has no parameter '" ++ name ++ "'"
  | argumentMissing function => function ++ "() takes at least one argument"
  | exclusiveNames => "mutually_exclusive() expects two argument names"
  | notOutputColumns kind => "output_all() expects a list or mapping, got " ++ kind.name
  | notDataset kind => "expected a dataset, got " ++ kind.name
  | notDatasetArgument text => "'" ++ text ++ "' is not a dataset argument"
  | macroInText => "text passed to render() cannot define macros"
  | noLength kind => "a " ++ kind.name ++ " has no length"
  | notListable kind => "cannot convert a " ++ kind.name ++ " to a list"
  | unknownFilter name => "unknown filter '" ++ name ++ "'"
  | noMethod kind name => kind.name ++ " has no method '" ++ name ++ "'"

def ConfigFault.message : ConfigFault → String
  | unknownStyle text =>
      "unknown compile style '" ++ text ++ "', expected cte or nested"
  | noOutputNamespace name =>
      "no default_namespace configured to place the output of " ++ name
  | badManifest => "invalid template manifest"
  | badCatalog => "invalid schema catalog"
  | badSettings => "invalid settings"
  | bodyMissing name => "no body for " ++ name
  | bodyUnreadable path => "cannot read " ++ path
  | settingsUnreadable path => "Failed to parse config " ++ path

def Error.message : Error → String
  | unknownTransform name => "Unknown transform: " ++ name
  | duplicateTemplate name => "Transform template already registered: " ++ name
  | missingArgument template argument =>
      "Transform " ++ template ++ " is missing required argument '" ++ argument ++ "'"
  | unexpectedArgument template argument =>
      "Transform " ++ template ++ " does not accept argument '" ++ argument ++ "'"
  | argumentShape template argument expected found =>
      "Argument '" ++ argument ++ "' of transform " ++ template ++ " must be a " ++
        expected.name ++ ", got " ++ found.name
  | mutuallyExclusiveArguments template first second =>
      "Transform " ++ template ++ " cannot take both '" ++ first ++ "' and '" ++ second ++ "'"
  | schemaUnavailable dataset reason =>
      "Schema unavailable for " ++ dataset ++ ": " ++ reason.message
  | duplicateColumn template column =>
      "Transform " ++ template ++ " produces column " ++ column ++ " more than once"
  | invalidColumnReference template column dataset =>
      "Transform " ++ template ++ " references column " ++ column ++ ", which is not in " ++
        dataset
  | templateSyntax template fault =>
      "Syntax error in template " ++ template ++ ": " ++ fault.message
  | templateEvaluation template fault =>
      "Error evaluating template " ++ template ++ ": " ++ fault.message
  | templateAborted template text => "Transform " ++ template ++ " aborted: " ++ text
  | emptyRender template =>
      "Rendering transform " ++ template ++ " produced no SQL; check its arguments"
  | aliasConflict name =>
      "Step alias " ++ name ++ " is already used earlier in this chain"
  | invalidAlias name => "Step alias '" ++ name ++ "' is not a valid identifier"
  | invalidTableName name reason =>
      "Invalid table name '" ++ name ++ "': " ++ reason.message
  | warehouse text => "Warehouse error: " ++ text
  | riskySql keyword =>
      "Refusing to run SQL containing " ++ keyword ++ " without acknowledge_risk"
  | config fault => "Configuration error: " ++ fault.message
  | io => "IO error"

end TransformChain
