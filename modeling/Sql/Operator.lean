/-! Operators, the tiers of expression syntax, and how operators group. -/
namespace Sql

inductive BinaryOp where
  | add | sub | mul | div | mod
  | concat
  | eq | ne | lt | le | gt | ge
  | and | or
deriving DecidableEq

inductive UnaryOp where
  | not | minus | plus
deriving DecidableEq

/-- How tightly a piece of expression syntax binds, loosest first. -/
inductive Tier where
  | lambda
  | or
  | and
  | not
  | comparison
  | concat
  | additive
  | multiplicative
  | unary
  | access
  | atomic
deriving DecidableEq

/-- Whether operators of one tier may stand in a row. -/
inductive Associativity where
  /-- They may, and the left ones apply first. -/
  | left
  /-- They need parentheses. -/
  | none
deriving DecidableEq

inductive Side where
  | left | right
deriving DecidableEq

namespace Tier

def rank : Tier → Nat
  | lambda => 0
  | or => 1
  | and => 2
  | not => 3
  | comparison => 4
  | concat => 5
  | additive => 6
  | multiplicative => 7
  | unary => 8
  | access => 9
  | atomic => 10

/-- All tiers, loosest first. -/
def all : List Tier :=
  [lambda, or, and, not, comparison, concat, additive, multiplicative, unary, access, atomic]

end Tier

namespace BinaryOp

def sql : BinaryOp → String
  | add => "+"
  | sub => "-"
  | mul => "*"
  | div => "/"
  | mod => "%"
  | concat => "||"
  | eq => "="
  | ne => "<>"
  | lt => "<"
  | le => "<="
  | gt => ">"
  | ge => ">="
  | and => "AND"
  | or => "OR"

def all : List BinaryOp :=
  [add, sub, mul, div, mod, concat, eq, ne, lt, le, gt, ge, and, or]

def isLogical : BinaryOp → Bool
  | and | or => true
  | _ => false

def isComparison : BinaryOp → Bool
  | eq | ne | lt | le | gt | ge => true
  | _ => false

def tier : BinaryOp → Tier
  | or => .or
  | and => .and
  | eq | ne | lt | le | gt | ge => .comparison
  | concat => .concat
  | add | sub => .additive
  | mul | div | mod => .multiplicative

def associativity (op : BinaryOp) : Associativity :=
  if op.tier = .comparison then .none else .left

/-- Operators for which `a op (b op c)` is written `a op b op c`. -/
def isAssociative : BinaryOp → Bool
  | add | mul | and | or | concat => true
  | _ => false

end BinaryOp

namespace UnaryOp

def sql : UnaryOp → String
  | not => "NOT"
  | minus => "-"
  | plus => "+"

def all : List UnaryOp := [not, minus, plus]

def tier : UnaryOp → Tier
  | not => .not
  | minus | plus => .unary

end UnaryOp

end Sql
