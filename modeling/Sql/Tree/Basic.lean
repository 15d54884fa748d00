import Sql.Clause
import Sql.Literal
import Sql.Operator
import Sql.Schema

/-! Syntax trees of expressions, relations and queries. Parentheses are not part of a tree; printing
works out where they are needed. -/
namespace Sql

mutual

inductive Expr where
  | literal (value : Literal)
  | column (name : Name)
  /-- The placeholder with the given number, counted from one. -/
  | parameter (number : Nat)
  /-- All columns, or those of one relation. -/
  | star (relation : Option Name)
  | binary (left : Expr) (op : BinaryOp) (right : Expr)
  | unary (op : UnaryOp) (operand : Expr)
  | isNull (operand : Expr) (negated : Bool)
  | isDistinct (left right : Expr) (negated : Bool)
  | like (operand pattern : Expr) (escape : Option Expr) (negated : Bool)
  | between (operand low high : Expr) (negated : Bool)
  | inList (operand : Expr) (items : List Expr) (negated : Bool)
  | inQuery (operand : Expr) (query : Query) (negated : Bool)
  | existsQuery (query : Query)
  | subquery (query : Query)
  | call (call : Call)
  | cast (operand : Expr) (type : DataType) (safe : Bool)
  | caseWhen (operand : Option Expr) (branches : List (Expr × Expr)) (otherwise : Option Expr)
  | array (items : List Expr)
  | row (items : List Expr)
  | subscript (base index : Expr)
  | field (base : Expr) (name : Ident)
  | lambda (params : List Ident) (body : Expr)
  | interval (text : String) (negative : Bool) (start : IntervalField) (stop : Option IntervalField)
  /-- A string read as the type of the given name, as in `DATE '2021-01-01'`. -/
  | typed (type : String) (text : String)

structure Call where
  name : Name
  quantifier : Option Quantifier
  args : List Expr
  order : List OrderTerm
  filter : Option Expr
  nulls : Option NullTreatment
  window : Option Over

structure OrderTerm where
  expr : Expr
  descending : Bool
  nulls : Option NullOrder

inductive Over where
  | named (name : Ident)
  | window (window : Window)

structure Window where
  /-- The named window that this one refines. -/
  base : Option Ident
  partition : List Expr
  order : List OrderTerm
  frame : Option Frame

structure Frame where
  units : FrameUnits
  start : Bound
  /-- Absent in the form with one bound. -/
  stop : Option Bound

inductive Bound where
  | unboundedPreceding
  | preceding (offset : Expr)
  | currentRow
  | following (offset : Expr)
  | unboundedFollowing

inductive Relation where
  /-- A table, possibly with a schema known ahead of resolution. -/
  | table (name : Name) (schema : Option Schema)
  | renamed (relation : Relation) (name : Ident) (columns : List Ident)
  | join (left right : Relation) (kind : JoinKind) (criteria : Criteria)
  | setOperation (operation : SetOperation)
  | query (query : Query)
  | values (rows : List Expr)
  | unnest (args : List Expr) (ordinality : Bool)
  | lateral (query : Query)
  | sample (relation : Relation) (method : SampleMethod) (percentage : Expr)

/-- How the rows of a join are matched. -/
inductive Criteria where
  | condition (expr : Expr)
  | columns (names : List Ident)
  | natural
  | absent

structure SetOperation where
  operator : SetOperator
  all : Bool
  left : Query
  right : Query

structure Query where
  bindings : Option With
  body : Body
  order : List OrderTerm
  offset : Option Nat
  limit : Option Limit

structure With where
  recursive : Bool
  entries : List Cte

/-- A common table expression. -/
structure Cte where
  name : Ident
  columns : List Ident
  query : Query

/-- What a query evaluates before ordering and limiting. -/
inductive Body where
  | select (select : Select)
  | table (name : Name)
  | values (rows : List Expr)
  | setOperation (operation : SetOperation)
  | nested (query : Query)

structure Select where
  quantifier : Option Quantifier
  items : List SelectItem
  sources : List Relation
  filter : Option Expr
  group : Option GroupBy
  having : Option Expr
  windows : List NamedWindow

inductive SelectItem where
  | expr (expr : Expr) (name : Option Ident)
  | star (relation : Option Name) (names : List Ident)

structure GroupBy where
  quantifier : Option Quantifier
  elements : List GroupingElement

inductive GroupingElement where
  | expr (expr : Expr)
  | rollup (exprs : List Expr)
  | cube (exprs : List Expr)
  | sets (sets : List (List Expr))

structure NamedWindow where
  name : Ident
  window : Window

end

namespace Query

/-- A query that is only a body. -/
def ofBody (body : Body) : Query := ⟨none, body, [], none, none⟩

/-- Does anything stand around the body? -/
def isModified (q : Query) : Bool :=
  q.bindings.isSome || !q.order.isEmpty || q.offset.isSome || q.limit.isSome

end Query

/-- Is nothing specified, as in `OVER ()`? -/
def Window.isEmpty (w : Window) : Bool :=
  w.base.isNone && w.partition.isEmpty && w.order.isEmpty && w.frame.isNone

namespace Expr

def null : Expr := .literal .null
def boolean (b : Bool) : Expr := .literal (.boolean b)
def integer (n : Int64) : Expr := .literal (.integer n)
def string (text : String) : Expr := .literal (.string text)

end Expr

/-- A call with arguments only. -/
def Call.plain (name : Name) (args : List Expr) : Call := ⟨name, none, args, [], none, none, none⟩

end Sql
