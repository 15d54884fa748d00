import Sql.Clause
import Sql.Ident

/-! Why a piece of syntax cannot be built from its parts. -/
namespace Sql

/-- What does not fit a kind of join. -/
inductive CriteriaFlaw where
  | condition | columns | natural | absent | noColumns
deriving DecidableEq

def CriteriaFlaw.text : CriteriaFlaw → String
  | condition => "ON"
  | columns => "USING"
  | natural => "NATURAL"
  | absent => "no criteria"
  | noColumns => "an empty USING list"

inductive Invalid where
  | emptyName
  | emptyInList
  | emptyCase
  | emptyLambda
  | repeatedParameter (name : Ident)
  | emptyProjection
  | emptyValues
  | emptyUnnest
  | emptyGrouping (kind : GroupingKind)
  | joinCriteria (kind : JoinKind) (flaw : CriteriaFlaw)
  | intervalRange (start stop : IntervalField)
deriving DecidableEq

def Invalid.message : Invalid → String
  | emptyName => "Qualified name must have at least one part"
  | emptyInList => "IN list must contain at least one value"
  | emptyCase => "CASE expression must have at least one WHEN branch"
  | emptyLambda => "Lambda expression must declare at least one parameter"
  | repeatedParameter name => "Lambda parameter '" ++ name.sql ++ "' is declared more than once"
  | emptyProjection => "SELECT must project at least one item"
  | emptyValues => "VALUES must contain at least one row"
  | emptyUnnest => "UNNEST requires at least one argument"
  | emptyGrouping kind => kind.sql ++ " must contain at least one grouping"
  | joinCriteria kind flaw => kind.sql ++ " cannot be combined with " ++ flaw.text
  | intervalRange start stop => "Invalid interval range " ++ start.sql ++ " TO " ++ stop.sql

end Sql
