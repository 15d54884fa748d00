import Sql.Parse.Expression
import Sql.Parse.Relation

/-! Parsing queries. -/
namespace Sql

/-- A query that combines two. -/
def Query.ofSetOperation (operator : SetOperator) (all : Bool) (left right : Query) : Query :=
  .ofBody (.setOperation ⟨operator, all, left, right⟩)

/-- Puts clauses around a query. A query that has some of its own becomes the body of another. -/
def Query.surround (bindings : Option With) (q : Query) (order : List OrderTerm)
    (offset : Option Nat) (limit : Option Limit) : Query :=
  if bindings.isNone && order.isEmpty && offset.isNone && limit.isNone then q
  else ⟨bindings, if q.isModified then .nested q else q.body, order, offset, limit⟩

namespace Grammar

open Sql.Parser

variable (g : Grammar)

/-- One set of grouping sets: a list in parentheses if nothing else follows it, or else one
expression. -/
def groupingSet : Parser (List Expr) := do
  if ← check (.symbol .leftParen) then
    if let .ok set ← attempt listed then return set
  return [← g.expr]
where
  listed : Parser (List Expr) := do
    let set ← g.parenExprs
    match ← peek with
    | .symbol .comma | .symbol .rightParen => return set
    | _ => unexpected "',' or ')'"

def groupingElement : Parser GroupingElement := do
  let span ← here
  let next ← peekAt 1
  if (← checkWord "ROLLUP") && next == .symbol .leftParen then
    advance
    valid span (GroupingElement.buildRollup (← g.parenExprs))
  else if (← checkWord "CUBE") && next == .symbol .leftParen then
    advance
    valid span (GroupingElement.buildCube (← g.parenExprs))
  else if (← checkWord "GROUPING") && next.isWord "SETS" then
    advance
    advance
    valid span (GroupingElement.buildSets (← parens (commaList g.groupingSet)))
  else return .expr (← g.expr)

def groupBy : Parser GroupBy := do
  expectKeyword .BY
  let quantifier ← quantifier
  return ⟨quantifier, ← commaList g.groupingElement⟩

/-- All columns, from the star on; a list of names for them may follow. -/
def starItem (relation : Option Name) : Parser SelectItem := do
  expectSymbol .star
  let renamed := (← check (.keyword .AS)) && (← peekAt 1) == .symbol .leftParen
  if renamed then
    advance
    return .star relation (← identList)
  else return .star relation []

def selectItem : Parser SelectItem := do
  if ← check (.symbol .star) then starItem none
  else if ← starAhead then
    let relation ← name
    expectSymbol .dot
    starItem (some relation)
  else
    let e ← g.expr
    return .expr e (← optionalName)

def select : Parser Select := do
  let span ← here
  expectKeyword .SELECT
  let quantifier ← quantifier
  let items ← commaList g.selectItem
  let select ← valid span (Select.build items)
  let sources ← if ← eatKeyword .FROM then commaList g.relation else pure []
  let filter ← optional (← eatKeyword .WHERE) g.expr
  let group ← optional (← eatKeyword .GROUP) g.groupBy
  let having ← optional (← eatKeyword .HAVING) g.expr
  let windows ← if ← eatKeyword .WINDOW then commaList g.namedWindow else pure []
  return { select with quantifier, sources, filter, group, having, windows }

def values : Parser Body := do
  let span ← here
  expectKeyword .VALUES
  let rows ← g.exprs
  valid span (Body.buildValues rows)

def primaryQuery : Parser Query := do
  match ← peek with
  | .keyword .SELECT => return .ofBody (.select (← g.select))
  | .keyword .TABLE =>
    advance
    return .ofBody (.table (← name))
  | .keyword .VALUES => return .ofBody (← g.values)
  | .symbol .leftParen => g.parenQuery
  | _ => unexpected "SELECT, TABLE, VALUES or '('"

/-- The right side of a set operation whose operator has been read. -/
def setOperand (operator : SetOperator) (left : Query) (side : Parser Query) :
    Parser (Option Query) := do
  let all := (← quantifier) == some .all
  return some (.ofSetOperation operator all left (← side))

def intersectNext (left : Query) : Parser (Option Query) := do
  if ← eatKeyword .INTERSECT then setOperand .intersect left g.primaryQuery
  else return none

def queryTerm : Parser Query := do
  let first ← g.primaryQuery
  iterate g.intersectNext first

def unionNext (left : Query) : Parser (Option Query) := do
  if ← eatKeyword .UNION then setOperand .union left g.queryTerm
  else if ← eatKeyword .EXCEPT then setOperand .except left g.queryTerm
  else return none

/-- Set operations, of which intersection binds tighter. -/
def setExpression : Parser Query := do
  let first ← g.queryTerm
  iterate g.unionNext first

def cte : Parser Cte := do
  let x ← ident
  let columns ← optionalIdentList
  expectKeyword .AS
  return ⟨x, columns, ← g.parenQuery⟩

def withClause : Parser With := do
  let recursive ← eatWord "RECURSIVE"
  return ⟨recursive, ← commaList g.cte⟩

def rowCount : Parser Nat := do
  match ← peek with
  | .integer n =>
    advance
    return n.toInt.toNat
  | _ => unexpected "row count"

def offset : Parser Nat := do
  let n ← rowCount
  unless ← eatWord "ROWS" do let _ ← eatWord "ROW"
  return n

def limit : Parser Limit := do
  if ← eatKeyword .ALL then return .all
  else return .count (← rowCount)

def fullQuery : Parser Query := do
  let bindings ← optional (← eatKeyword .WITH) g.withClause
  let q ← g.setExpression
  let order ← g.optionalOrder
  let offset ← optional (← eatKeyword .OFFSET) offset
  let limit ← optional (← eatKeyword .LIMIT) limit
  return q.surround bindings order offset limit

/-- The grammar one level up. -/
def deepen : Grammar where
  query := g.fullQuery
  relation := g.joinedRelation
  exprFrom := g.expression
  type := dataType g.type

/-- The grammar of trees that are nested at most so deeply. -/
def ofDepth : Nat → Grammar
  | 0 => bottom
  | depth + 1 => (ofDepth depth).deepen

/-- How deeply queries, relations, expressions and types may be nested in each other. -/
def maxDepth : Nat := 64

end Grammar

def Query.parse (text : String) : Except ParseError Query :=
  (Grammar.ofDepth Grammar.maxDepth).query.run text

def Expr.parse (text : String) : Except ParseError Expr :=
  (Grammar.ofDepth Grammar.maxDepth).expr.run text

def DataType.parse (text : String) : Except ParseError DataType :=
  (Grammar.ofDepth Grammar.maxDepth).type.run text

end Sql
