import Sql.Parse.Window
import Sql.Tree.Bare

/-! Parsing expressions. Operators are read by how tightly they bind. -/
namespace Sql

def Symbol.binaryOp? : Symbol → Option BinaryOp
  | plus => some .add
  | minus => some .sub
  | star => some .mul
  | slash => some .div
  | percent => some .mod
  | concat => some .concat
  | eq => some .eq
  | ne => some .ne
  | lt => some .lt
  | le => some .le
  | gt => some .gt
  | ge => some .ge
  | _ => none

def Token.Kind.binaryOp? : Token.Kind → Option BinaryOp
  | symbol mark => mark.binaryOp?
  | keyword .AND => some .and
  | keyword .OR => some .or
  | _ => none

def Token.Kind.unaryOp? : Token.Kind → Option UnaryOp
  | symbol .minus => some .minus
  | symbol .plus => some .plus
  | keyword .NOT => some .not
  | _ => none

namespace Grammar

open Sql.Parser

variable (g : Grammar)

/-- The rest of a call after its name. -/
def call (name : Name) : Parser Expr := do
  expectSymbol .leftParen
  let (quantifier, args, order) ← if ← eatSymbol .rightParen then pure (none, [], []) else do
    let quantifier ← quantifier
    let args ← g.exprs
    let order ← g.optionalOrder
    expectSymbol .rightParen
    pure (quantifier, args, order)
  let filtered := (← checkWord "FILTER") && (← peekAt 1) == .symbol .leftParen
  let filter ← optional filtered do
    advance
    advance
    expectKeyword .WHERE
    let condition ← g.expr
    expectSymbol .rightParen
    return condition
  let nulls ← if (← peekAt 1).isWord "NULLS" then do
      if ← eatWord "IGNORE" then advance; pure (some .ignore)
      else if ← eatWord "RESPECT" then advance; pure (some .respect)
      else pure none
    else pure none
  let window ← optional (← eatWord "OVER") g.windowTarget
  return .call ⟨name, quantifier, args, order, filter, nulls, window⟩

/-- The body of a lambda, with the arrow before it. -/
def lambdaBody (params : List Ident) : Parser Expr := do
  let span ← here
  expectSymbol .arrow
  let body ← g.expr
  valid span (Expr.buildLambda params body)

/-- An expression in parentheses, or a row of several. -/
def grouped : Parser Expr := parens do
  let first ← g.expr
  if ← eatSymbol .comma then return .row (first :: (← g.exprs))
  else return first

/-- What an opening parenthesis starts: the parameters of a lambda, a subquery, a row or a grouped
expression. A subquery that turns out to be none may still be an operand in parentheses; if it is
not, the error is that of the subquery. -/
def parenthesized (floor : Nat) : Parser Expr := do
  if floor ≤ Tier.lambda.rank && (← parametersAhead) then
    let params ← identList
    g.lambdaBody params
  else if ← queryAhead then
    match ← attempt g.parenQuery with
    | .ok query => return .subquery query
    | .error e => orFailWith g.grouped e
  else g.grouped

def whenBranch (branches : List (Expr × Expr)) : Parser (Option (List (Expr × Expr))) := do
  if ← eatKeyword .WHEN then
    let condition ← g.expr
    expectKeyword .THEN
    let value ← g.expr
    return some (branches ++ [(condition, value)])
  else return none

def caseWhen : Parser Expr := do
  let span ← here
  expectKeyword .CASE
  let operand ← optional (!(← check (.keyword .WHEN))) g.expr
  let branches ← iterate g.whenBranch []
  if branches.isEmpty then unexpected "WHEN"
  let otherwise ← optional (← eatKeyword .ELSE) g.expr
  expectKeyword .END
  valid span (Expr.buildCase operand branches otherwise)

/-- A cast, from its first word on. -/
def cast (safe : Bool) : Parser Expr := do
  advance
  parens do
    let e ← g.expr
    expectKeyword .AS
    return .cast e (← g.type) safe

/-- An interval literal, from its first word on. -/
def interval : Parser Expr := do
  let span ← here
  advance
  let negative ← eatSymbol .minus
  unless negative do let _ ← eatSymbol .plus
  match ← peek with
  | .string text =>
    advance
    let start ← intervalField
    let stop ← optional (← eatWord "TO") intervalField
    valid span (Expr.buildInterval text negative start stop)
  | _ => unexpected "interval string"

/-- Is an interval literal ahead, rather than a column of that name? -/
def intervalAhead : Parser Bool := do
  match ← peekAt 1 with
  | .string _ => return true
  | .symbol .minus | .symbol .plus => return (← peekAt 2).isString
  | _ => return false

/-- A column, a call, or all columns of a relation. -/
def named : Parser Expr := do
  let n ← name
  if ← check (.symbol .leftParen) then g.call n
  else if (← check (.symbol .dot)) && (← peekAt 1) == .symbol .star then
    advance
    advance
    return .star (some n)
  else if n.isBare then return .call (.plain n [])
  else return .column n

/-- An expression that starts with an undelimited word. -/
def fromWord (word : String) : Parser Expr := do
  let next ← peekAt 1
  let upper := word.toUpper
  if upper == "INTERVAL" && (← intervalAhead) then interval
  else if upper == "ARRAY" && next == .symbol .leftBracket then
    advance
    advance
    return .array (← g.exprsUntil .rightBracket)
  else if upper == "ROW" && next == .symbol .leftParen then
    advance
    advance
    return .row (← g.exprsUntil .rightParen)
  else if upper == "TRY_CAST" && next == .symbol .leftParen then g.cast true
  else
    match next with
    | .string text =>
      advance
      advance
      return .ofTyped word text
    | _ => g.named

/-- An expression that starts with an identifier. -/
def fromIdent (floor : Nat) (x : Ident) : Parser Expr := do
  if floor ≤ Tier.lambda.rank && (← peekAt 1) == .symbol .arrow then
    advance
    g.lambdaBody [x]
  else if x.delimited then g.named
  else g.fromWord x.text

/-- Reads one token and gives a value for it. -/
def taking (e : Expr) : Parser Expr := do
  advance
  return e

def placeholder : Parser Expr := do
  advance
  modify fun c => { c with parameters := c.parameters + 1 }
  return .parameter (← get).parameters

def primary (floor : Nat) : Parser Expr := do
  match ← peek with
  | .integer n => taking (.integer n)
  | .decimal text => taking (.literal (.decimal text))
  | .double d => taking (.literal (.double d))
  | .string text => taking (.string text)
  | .binary bytes => taking (.literal (.binary bytes))
  | .symbol .question => placeholder
  | .symbol .star => taking (.star none)
  | .symbol .leftParen => g.parenthesized floor
  | .keyword .NULL => taking .null
  | .keyword .TRUE => taking (.boolean true)
  | .keyword .FALSE => taking (.boolean false)
  | .keyword .CASE => g.caseWhen
  | .keyword .CAST => g.cast false
  | .keyword .EXISTS =>
    advance
    return .existsQuery (← g.parenQuery)
  | .ident x => g.fromIdent floor x
  | _ => unexpected "expression"

/-- A sign or `NOT` and its operand, or an expression without. -/
def signed (floor : Nat) : Parser Expr := do
  match (← peek).unaryOp? with
  | some op =>
    advance
    return .unary op (← g.exprFrom op.tier.rank)
  | none => g.primary floor

/-- Does a predicate follow, such as `IS NULL` or `NOT IN`? -/
def predicateAhead : Parser Bool := do
  match ← peek with
  | .keyword .IS | .keyword .LIKE | .keyword .BETWEEN | .keyword .IN => return true
  | .keyword .NOT =>
    match ← peekAt 1 with
    | .keyword .LIKE | .keyword .BETWEEN | .keyword .IN => return true
    | _ => return false
  | _ => return false

/-- What follows `IS`. -/
def isPredicate (left : Expr) : Parser Expr := do
  let negated ← eatKeyword .NOT
  if ← eatKeyword .NULL then return .isNull left negated
  else if ← eatKeyword .DISTINCT then
    expectKeyword .FROM
    return .isDistinct left (← g.operand) negated
  else unexpected "NULL or DISTINCT FROM"

/-- What follows `IN`; `span` is where the predicate starts. -/
def inPredicate (span : Span) (left : Expr) (negated : Bool) : Parser Expr := do
  let query ← if ← queryAhead then attempt g.parenQuery else return ← fromList
  match query with
  | .ok query => return .inQuery left query negated
  | .error _ => fromList
where
  fromList : Parser Expr := do
    let items ← g.parenExprs
    valid span (Expr.buildInList left items negated)

def predicate (left : Expr) : Parser Expr := do
  let span ← here
  if ← eatKeyword .IS then g.isPredicate left
  else
    let negated ← eatKeyword .NOT
    if ← eatKeyword .LIKE then
      let pattern ← g.operand
      let escape ← optional (← eatWord "ESCAPE") g.operand
      return .like left pattern escape negated
    else if ← eatKeyword .BETWEEN then
      let low ← g.operand
      expectKeyword .AND
      return .between left low (← g.operand) negated
    else if ← eatKeyword .IN then g.inPredicate span left negated
    else unexpected "LIKE, BETWEEN or IN"

/-- An expression read so far, and whether a comparison has been applied to it at this level. -/
structure Operand where
  expr : Expr
  compared : Bool

/-- Comparisons do not stand in a row. -/
def refuseCompared (left : Operand) : Parser Unit := do
  if left.compared then unexpected "a parenthesized comparison"

/-- Applies what follows to the expression read so far, unless it binds more loosely than
`floor`. -/
def extend (floor : Nat) (left : Operand) : Parser (Option Operand) := do
  let kind ← peek
  if kind == .symbol .leftBracket then
    advance
    let index ← g.expr
    expectSymbol .rightBracket
    return some { left with expr := .subscript left.expr index }
  else if kind == .symbol .dot then
    advance
    return some { left with expr := .field left.expr (← ident) }
  else if let some op := kind.binaryOp? then
    if op.tier.rank < floor then return none
    if op.associativity = .none then refuseCompared left
    advance
    let right ← g.exprFrom (op.tier.rank + 1)
    return some ⟨.binary left.expr op right, left.compared || op.associativity = .none⟩
  else if ← predicateAhead then
    if Tier.comparison.rank < floor then return none
    refuseCompared left
    return some ⟨← g.predicate left.expr, true⟩
  else return none

/-- An expression in which every operator binds at least as tightly as `floor`. -/
def expression (floor : Nat) : Parser Expr := do
  let first ← g.signed floor
  return (← iterate (g.extend floor) ⟨first, false⟩).expr

end Grammar

end Sql
