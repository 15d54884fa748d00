import Sql.Parse.Type
import Sql.Tree.Valid

/-! The parsers of one level of nesting, and the lists that many rules share. Every rule of the
grammar is written over the parsers one level down, so that the depth of a tree is bounded. -/
namespace Sql

structure Grammar where
  query : Parser Query
  relation : Parser Relation
  /-- Expressions in which every operator binds at least as tightly as the given rank. -/
  exprFrom : Nat → Parser Expr
  type : Parser DataType

namespace Grammar

open Sql.Parser

/-- Below the deepest level nothing is accepted. -/
def bottom : Grammar where
  query := do failAt (← here) .tooDeep
  relation := do failAt (← here) .tooDeep
  exprFrom _ := do failAt (← here) .tooDeep
  type := do failAt (← here) .tooDeep

variable (g : Grammar)

/-- Any expression. -/
def expr : Parser Expr := g.exprFrom Tier.lambda.rank

/-- An operand of a predicate. -/
def operand : Parser Expr := g.exprFrom Tier.concat.rank

def exprs : Parser (List Expr) := commaList g.expr

/-- Expressions up to a closing mark, possibly none; the opening mark has been read. -/
def exprsUntil (closing : Symbol) : Parser (List Expr) := do
  if ← eatSymbol closing then return []
  let es ← g.exprs
  expectSymbol closing
  return es

/-- Expressions in parentheses, possibly none. -/
def parenExprs : Parser (List Expr) := do
  expectSymbol .leftParen
  g.exprsUntil .rightParen

def parenQuery : Parser Query := parens g.query

/-- `DISTINCT` or `ALL`, if it follows. -/
def quantifier : Parser (Option Quantifier) := do
  if ← eatKeyword .DISTINCT then return some .distinct
  else if ← eatKeyword .ALL then return some .all
  else return none

def nullOrder : Parser (Option NullOrder) := do
  if ← eatWord "NULLS" then
    if ← eatWord "FIRST" then return some .first
    else if ← eatWord "LAST" then return some .last
    else unexpected "FIRST or LAST"
  else return none

def orderTerm : Parser OrderTerm := do
  let e ← g.expr
  let descending ← eatWord "DESC"
  unless descending do let _ ← eatWord "ASC"
  return ⟨e, descending, ← nullOrder⟩

/-- The terms after `ORDER BY`, if that follows. -/
def optionalOrder : Parser (List OrderTerm) := do
  if ← eatKeyword .ORDER then
    expectKeyword .BY
    commaList g.orderTerm
  else return []

end Grammar

end Sql
