import Sql.Tree.Basic

/-! Which operands need parentheses. -/
namespace Sql

namespace Expr

def tier : Expr → Tier
  | .literal value => if value.isNegative then .unary else .atomic
  | .binary _ op _ => op.tier
  | .unary op _ => op.tier
  | .isNull .. | .isDistinct .. | .like .. | .between .. | .inList .. | .inQuery .. => .comparison
  | .subscript .. | .field .. => .access
  | .lambda .. => .lambda
  | _ => .atomic

/-- Does the text begin with a sign, so that a sign before it would be read with it? -/
def startsWithSign : Expr → Bool
  | .unary .minus _ | .unary .plus _ => true
  | .literal value => value.isNegative
  | _ => false

/-- Is the expression too loose for a slot that asks for `required`? -/
def isLooser (e : Expr) (required : Tier) : Bool := e.tier.rank < required.rank

/-- Is the expression a use of this very operator? -/
def isBinaryOf (op : BinaryOp) : Expr → Bool
  | .binary _ op' _ => op' = op
  | _ => false

/-- Does an operand of `op` need parentheses? On equal tiers the left operand of a chain goes
without, and so does the right one under the same associative operator. -/
def needsParens (op : BinaryOp) (side : Side) (operand : Expr) : Bool :=
  if operand.tier = op.tier then
    match op.associativity, side with
    | .none, _ => true
    | .left, .left => false
    | .left, .right => !(operand.isBinaryOf op && op.isAssociative)
  else operand.isLooser op.tier

end Expr

/-- How tightly relation syntax binds, loosest first. -/
inductive Relation.Tier where
  | join | sampled | renamed | primary
deriving DecidableEq

namespace Relation

def Tier.rank : Tier → Nat
  | join => 0
  | sampled => 1
  | renamed => 2
  | primary => 3

def tier : Relation → Tier
  | .join .. => .join
  | .sample .. => .sampled
  | .renamed .. => .renamed
  | _ => .primary

end Relation

/-- Does an operand of a set operation need parentheses? -/
def SetOperation.needsParens (operator : SetOperator) (side : Side) (operand : Query) : Bool :=
  operand.isModified ||
    match operand.body, side with
    | .setOperation child, .left => child.operator.rank < operator.rank
    | .setOperation child, .right => child.operator.rank ≤ operator.rank
    | _, _ => false

end Sql
