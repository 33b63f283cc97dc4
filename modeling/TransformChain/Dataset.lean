import TransformChain.Schema
import TransformChain.Table

/-!
# Datasets

What a transform can read from: a table of the warehouse, or a statement that stands for one.
-/

namespace TransformChain

inductive Dataset where
  | table (name : TableName) (columns : Option Schema)
  | query (name sql : String) (columns : Option Schema)
deriving Repr, DecidableEq

namespace Dataset

def columns : Dataset → Option Schema
  | table _ columns => columns
  | query _ _ columns => columns

/-- The text that stands for the dataset after `FROM` and `JOIN`. -/
def relation : Dataset → String
  | table name _ => name.display
  | query _ sql _ => "(\n" ++ sql ++ "\n)"

def label : Dataset → String
  | table name _ => name.display
  | query name _ _ => name

end Dataset
end TransformChain
