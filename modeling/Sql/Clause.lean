/-! The fixed choices that clauses offer, with their spelling. -/
namespace Sql

inductive Quantifier where
  | distinct | all
deriving DecidableEq

def Quantifier.sql : Quantifier → String
  | distinct => "DISTINCT"
  | all => "ALL"

/-- How a window function treats nulls. -/
inductive NullTreatment where
  | ignore | respect
deriving DecidableEq

def NullTreatment.sql : NullTreatment → String
  | ignore => "IGNORE NULLS"
  | respect => "RESPECT NULLS"

/-- Where an ordering puts nulls. -/
inductive NullOrder where
  | first | last
deriving DecidableEq

def NullOrder.sql : NullOrder → String
  | first => "NULLS FIRST"
  | last => "NULLS LAST"

inductive FrameUnits where
  | rows | range | groups
deriving DecidableEq

def FrameUnits.sql : FrameUnits → String
  | rows => "ROWS"
  | range => "RANGE"
  | groups => "GROUPS"

inductive Limit where
  | count (n : Nat)
  | all
deriving DecidableEq

inductive JoinKind where
  | inner | left | right | full | cross
deriving DecidableEq

def JoinKind.sql : JoinKind → String
  | inner => "INNER JOIN"
  | left => "LEFT JOIN"
  | right => "RIGHT JOIN"
  | full => "FULL JOIN"
  | cross => "CROSS JOIN"

inductive SetOperator where
  | union | intersect | except
deriving DecidableEq

namespace SetOperator

def sql : SetOperator → String
  | union => "UNION"
  | intersect => "INTERSECT"
  | except => "EXCEPT"

/-- Intersection binds tighter than the other two. -/
def rank : SetOperator → Nat
  | union | except => 1
  | intersect => 2

end SetOperator

inductive SampleMethod where
  | bernoulli | system
deriving DecidableEq

def SampleMethod.sql : SampleMethod → String
  | bernoulli => "BERNOULLI"
  | system => "SYSTEM"

/-- The fields of an interval, coarsest first. -/
inductive IntervalField where
  | year | month | day | hour | minute | second
deriving DecidableEq

namespace IntervalField

def sql : IntervalField → String
  | year => "YEAR"
  | month => "MONTH"
  | day => "DAY"
  | hour => "HOUR"
  | minute => "MINUTE"
  | second => "SECOND"

def all : List IntervalField := [year, month, day, hour, minute, second]

def rank : IntervalField → Nat
  | year => 0
  | month => 1
  | day => 2
  | hour => 3
  | minute => 4
  | second => 5

def isYearMonth : IntervalField → Bool
  | year | month => true
  | _ => false

/-- May an interval run from the first field to the second? The second is finer, and months are
never mixed with days. -/
def admits (start stop : IntervalField) : Bool :=
  start.rank < stop.rank && start.isYearMonth == stop.isYearMonth

end IntervalField

/-- The grouping elements that hold lists. -/
inductive GroupingKind where
  | rollup | cube | sets
deriving DecidableEq

def GroupingKind.sql : GroupingKind → String
  | rollup => "ROLLUP"
  | cube => "CUBE"
  | sets => "GROUPING SETS"

end Sql
