import Sql.Parse.Grammar

/-! Parsing windows. -/
namespace Sql.Grammar

open Sql.Parser

variable (g : Grammar)

def unitsAhead : Parser Bool := do
  let kind ← peek
  return kind.isWord "ROWS" || kind.isWord "RANGE" || kind.isWord "GROUPS"

def frameUnits : Parser FrameUnits := do
  if ← eatWord "ROWS" then return .rows
  else if ← eatWord "RANGE" then return .range
  else if ← eatWord "GROUPS" then return .groups
  else unexpected "ROWS, RANGE or GROUPS"

def bound : Parser Bound := do
  if ← eatWord "UNBOUNDED" then
    if ← eatWord "PRECEDING" then return .unboundedPreceding
    else if ← eatWord "FOLLOWING" then return .unboundedFollowing
    else unexpected "PRECEDING or FOLLOWING"
  else if (← checkWord "CURRENT") && (← peekAt 1).isWord "ROW" then
    advance
    advance
    return .currentRow
  else
    let offset ← g.operand
    if ← eatWord "PRECEDING" then return .preceding offset
    else if ← eatWord "FOLLOWING" then return .following offset
    else unexpected "PRECEDING or FOLLOWING"

def frame : Parser Frame := do
  let units ← frameUnits
  if ← eatKeyword .BETWEEN then
    let start ← g.bound
    expectKeyword .AND
    let stop ← g.bound
    return ⟨units, start, some stop⟩
  else return ⟨units, ← g.bound, none⟩

/-- The window that this one refines: a name that starts none of the clauses. -/
def baseWindow : Parser (Option Ident) := do
  let partitioned := (← checkWord "PARTITION") && (← peekAt 1) == .keyword .BY
  if (← check (.keyword .ORDER)) || partitioned || (← unitsAhead) then return none
  else optional (← peek).isIdent ident

def partition : Parser (List Expr) := do
  if ← eatWord "PARTITION" then
    expectKeyword .BY
    g.exprs
  else return []

/-- The inside of the parentheses of a window. -/
def window : Parser Window := do
  let base ← baseWindow
  let partition ← g.partition
  let order ← g.optionalOrder
  return ⟨base, partition, order, ← optional (← unitsAhead) g.frame⟩

/-- What follows `OVER`. -/
def windowTarget : Parser Over := do
  if ← eatSymbol .leftParen then
    let w ← g.window
    expectSymbol .rightParen
    return .window w
  else return .named (← ident)

def namedWindow : Parser NamedWindow := do
  let x ← ident
  expectKeyword .AS
  return ⟨x, ← parens g.window⟩

end Sql.Grammar
