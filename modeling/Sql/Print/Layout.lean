/-! Choices about the layout of printed text. -/
namespace Sql

inductive Mode where
  /-- Everything on one line. -/
  | inline
  /-- Clauses on lines of their own, their keywords ending in one column. -/
  | pretty
deriving DecidableEq

structure Layout where
  mode : Mode := .inline
  /-- Columns by which the branches of a case expression are shifted. -/
  indent : Nat := 2
deriving DecidableEq

namespace Layout

def isPretty (o : Layout) : Bool := o.mode == .pretty

/-- What separates two pieces of which the second may start a line. -/
def newline (o : Layout) : String := if o.isPretty then "\n" else " "

end Layout

end Sql
