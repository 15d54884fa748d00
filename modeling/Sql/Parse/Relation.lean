import Sql.Parse.Grammar

/-! Parsing the relations of a FROM clause. -/
namespace Sql

/-- A query in parentheses as a relation. Bare lists of values and set operations are relations of
their own. -/
def Relation.ofQuery (q : Query) : Relation :=
  if q.isModified then .query q
  else
    match q.body with
    | .values rows => .values rows
    | .setOperation operation => .setOperation operation
    | body => .query (.ofBody body)

namespace Grammar

open Sql.Parser

variable (g : Grammar)

def unnest : Parser Relation := do
  let span ← here
  advance
  let args ← g.parenExprs
  let ordinality := (← check (.keyword .WITH)) && (← peekAt 1).isWord "ORDINALITY"
  if ordinality then
    advance
    advance
  valid span (Relation.buildUnnest args ordinality)

/-- A query in parentheses, or a relation in parentheses if it is none. -/
def parenRelation : Parser Relation := do
  if ← queryAhead then
    if let .ok query ← attempt g.parenQuery then return .ofQuery query
  parens g.relation

def primaryRelation : Parser Relation := do
  match ← peek with
  | .keyword .UNNEST => g.unnest
  | .keyword .LATERAL =>
    advance
    return .lateral (← g.parenQuery)
  | .symbol .leftParen => g.parenRelation
  | .ident _ => return .ofTable (← name)
  | _ => unexpected "table name or '('"

def renamedRelation : Parser Relation := do
  let relation ← g.primaryRelation
  match ← optionalName with
  | none => return relation
  | some x => return .renamed relation x (← optionalIdentList)

def sampleMethod : Parser SampleMethod := do
  if ← eatWord "BERNOULLI" then return .bernoulli
  else if ← eatWord "SYSTEM" then return .system
  else unexpected "BERNOULLI or SYSTEM"

def sampledRelation : Parser Relation := do
  let relation ← g.renamedRelation
  if ← eatKeyword .TABLESAMPLE then
    let method ← sampleMethod
    return .sample relation method (← parens g.expr)
  else return relation

/-- The kind of a join other than a cross join, up to the word `JOIN`. -/
def joinKind : Parser (Option JoinKind) := do
  match ← peek with
  | .keyword .JOIN => return some .inner
  | .keyword .INNER => advance; return some .inner
  | .keyword .LEFT => outer .left
  | .keyword .RIGHT => outer .right
  | .keyword .FULL => outer .full
  | _ => return none
where
  outer (kind : JoinKind) : Parser (Option JoinKind) := do
    advance
    let _ ← eatKeyword .OUTER
    return some kind

def joinCriteria : Parser Criteria := do
  if ← eatKeyword .ON then return .condition (← g.expr)
  else if ← eatKeyword .USING then return .columns (← identList)
  else unexpected "ON or USING"

/-- Joins another relation to the one read so far, if a join follows. -/
def joinNext (left : Relation) : Parser (Option Relation) := do
  let span ← here
  if ← eatKeyword .CROSS then
    expectKeyword .JOIN
    return some (.join left (← g.sampledRelation) .cross .absent)
  else
    let natural ← eatKeyword .NATURAL
    match ← joinKind with
    | none => if natural then unexpected "join type" else return none
    | some kind =>
      expectKeyword .JOIN
      let right ← g.sampledRelation
      let criteria ← if natural then pure .natural else g.joinCriteria
      return some (← valid span (Relation.buildJoin left right kind criteria))

/-- A relation and the relations joined to it. -/
def joinedRelation : Parser Relation := do
  let first ← g.sampledRelation
  iterate g.joinNext first

end Grammar

end Sql
