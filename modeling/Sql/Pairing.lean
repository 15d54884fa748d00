/-! Comparing lists and optional values through a comparison of their elements. -/
namespace Sql

variable {α : Type}

/-- Equal length, and related position by position. -/
def sameList (same : α → α → Bool) : List α → List α → Bool
  | [], [] => true
  | x :: xs, y :: ys => same x y && sameList same xs ys
  | _, _ => false

/-- Both absent, or both present and related. -/
def sameOption (same : α → α → Bool) : Option α → Option α → Bool
  | none, none => true
  | some x, some y => same x y
  | _, _ => false

end Sql
