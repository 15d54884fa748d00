/-! Reserved words. Words with a meaning only in certain places are ordinary identifiers. -/
namespace Sql

inductive Keyword where
  | SELECT | FROM | WHERE | GROUP | HAVING | ORDER | BY | LIMIT | OFFSET | WINDOW
  | WITH | VALUES | TABLE | DISTINCT | ALL | AS | UNION | INTERSECT | EXCEPT | JOIN
  | INNER | LEFT | RIGHT | FULL | OUTER | CROSS | NATURAL | ON | USING | LATERAL
  | UNNEST | TABLESAMPLE | AND | OR | NOT | IN | IS | LIKE | BETWEEN | EXISTS
  | NULL | TRUE | FALSE | CASE | WHEN | THEN | ELSE | END | CAST
deriving DecidableEq

namespace Keyword

def all : List Keyword :=
  [.SELECT, .FROM, .WHERE, .GROUP, .HAVING, .ORDER, .BY, .LIMIT, .OFFSET, .WINDOW, .WITH, .VALUES,
  .TABLE, .DISTINCT, .ALL, .AS, .UNION, .INTERSECT, .EXCEPT, .JOIN, .INNER, .LEFT, .RIGHT, .FULL,
  .OUTER, .CROSS, .NATURAL, .ON, .USING, .LATERAL, .UNNEST, .TABLESAMPLE, .AND, .OR, .NOT, .IN,
  .IS, .LIKE, .BETWEEN, .EXISTS, .NULL, .TRUE, .FALSE, .CASE, .WHEN, .THEN, .ELSE, .END, .CAST]

def word : Keyword → String
  | SELECT => "SELECT"
  | FROM => "FROM"
  | WHERE => "WHERE"
  | GROUP => "GROUP"
  | HAVING => "HAVING"
  | ORDER => "ORDER"
  | BY => "BY"
  | LIMIT => "LIMIT"
  | OFFSET => "OFFSET"
  | WINDOW => "WINDOW"
  | WITH => "WITH"
  | VALUES => "VALUES"
  | TABLE => "TABLE"
  | DISTINCT => "DISTINCT"
  | ALL => "ALL"
  | AS => "AS"
  | UNION => "UNION"
  | INTERSECT => "INTERSECT"
  | EXCEPT => "EXCEPT"
  | JOIN => "JOIN"
  | INNER => "INNER"
  | LEFT => "LEFT"
  | RIGHT => "RIGHT"
  | FULL => "FULL"
  | OUTER => "OUTER"
  | CROSS => "CROSS"
  | NATURAL => "NATURAL"
  | ON => "ON"
  | USING => "USING"
  | LATERAL => "LATERAL"
  | UNNEST => "UNNEST"
  | TABLESAMPLE => "TABLESAMPLE"
  | AND => "AND"
  | OR => "OR"
  | NOT => "NOT"
  | IN => "IN"
  | IS => "IS"
  | LIKE => "LIKE"
  | BETWEEN => "BETWEEN"
  | EXISTS => "EXISTS"
  | NULL => "NULL"
  | TRUE => "TRUE"
  | FALSE => "FALSE"
  | CASE => "CASE"
  | WHEN => "WHEN"
  | THEN => "THEN"
  | ELSE => "ELSE"
  | END => "END"
  | CAST => "CAST"

/-- The reserved word that is spelled like this in any case. -/
def ofWord? (text : String) : Option Keyword :=
  let upper := text.toUpper
  all.find? fun k => k.word == upper

end Keyword

end Sql
