import Sql.Print.Layout
import Sql.Text.Indent

/-! Laying out the clauses of a statement. -/
namespace Sql

inductive Entry where
  | clause (keyword value : String)
  /-- Text that stands outside the column of keywords. -/
  | block (text : String)
deriving DecidableEq

namespace Entry

def keywordLength : Entry → Nat
  | clause keyword _ => keyword.length
  | block _ => 0

/-- The width of the keyword column. -/
def width (entries : List Entry) : Nat := (entries.map keywordLength).foldl max 0

def alignRight (width : Nat) (text : String) : String :=
  Text.spaces (width - text.length) ++ text

def inlineText : Entry → String
  | clause keyword value => keyword ++ " " ++ value
  | block text => text

/-- A clause whose later lines are kept to the right of the keyword column. -/
def prettyText (width : Nat) : Entry → String
  | clause keyword value => alignRight width keyword ++ " " ++ Text.pad value (width + 1)
  | block text => text

def layOut (o : Layout) (entries : List Entry) : String :=
  if o.isPretty then "\n".intercalate (entries.map (prettyText (width entries)))
  else " ".intercalate (entries.map inlineText)

end Entry

end Sql
