import Sql.DataType.Basic
import Sql.Ident
import Sql.Operator

/-! Why a schema cannot be worked out. -/
namespace Sql

/-- Where two types had to agree. -/
inductive Place where
  | caseBranches
  | arrayItems
  | arrayConcat
  | operands (op : BinaryOp)
  | usingColumn (name : Ident)
  | valuesColumn (position : Nat)
deriving DecidableEq

def Place.text : Place → String
  | caseBranches => "CASE"
  | arrayItems => "ARRAY"
  | arrayConcat => "||"
  | operands op => "operator " ++ op.sql
  | usingColumn name => "USING column " ++ name.sql
  | valuesColumn position => "VALUES column " ++ Text.decimal position

inductive ResolveError where
  | unknownRelation (name : Name)
  | duplicateRelation (name : Name)
  | aliasCount (relation : Ident) (names columns : Nat)
  | columnCount (left right : Nat)
  | rowWidth (row expected actual : Nat)
  | typeMismatch (place : Place) (left right : DataType)
  | setOperationTypes (position : Nat) (left right : DataType)
  | unknownColumn (name : Ident)
  | ambiguousColumn (name : Ident)
  | duplicateField (source : Option Name) (name : Ident)
deriving DecidableEq

def ResolveError.message : ResolveError → String
  | unknownRelation name => "Unknown relation: " ++ name.sql
  | duplicateRelation name => "Duplicate relation alias: " ++ name.sql
  | aliasCount relation names columns =>
    "Relation " ++ relation.sql ++ " has " ++ Text.decimal columns ++ " columns but " ++
      Text.decimal names ++ " aliases were given"
  | columnCount left right =>
    "Set operation inputs have " ++ Text.decimal left ++ " and " ++ Text.decimal right ++ " columns"
  | rowWidth row expected actual =>
    "VALUES row " ++ Text.decimal row ++ " has " ++ Text.decimal actual ++ " columns, expected " ++
      Text.decimal expected
  | typeMismatch place left right =>
    "Type mismatch for " ++ place.text ++ ": " ++ left.sql ++ " vs " ++ right.sql
  | setOperationTypes position left right =>
    "Set operation column " ++ Text.decimal position ++ " has incompatible types " ++ left.sql ++
      " and " ++ right.sql
  | unknownColumn name => "Unknown column: " ++ name.sql
  | ambiguousColumn name => "Ambiguous column: " ++ name.sql
  | duplicateField none name => "Duplicate field: " ++ name.sql
  | duplicateField (some source) name => "Duplicate field: " ++ source.sql ++ "." ++ name.sql

end Sql
