import Sql.Double.Shortest
import Sql.Text.Bytes
import Sql.Text.Quoted

/-! Literal values and their text. -/
namespace Sql

inductive Literal where
  | null
  | boolean (value : Bool)
  | integer (value : Int64)
  /-- An exact number, kept as it was written. -/
  | decimal (text : String)
  | double (value : Double)
  | string (text : String)
  | binary (bytes : List UInt8)
deriving DecidableEq

namespace Literal

/-- Numbers whose text starts with a minus sign. -/
def isNegative : Literal → Bool
  | integer n => n < 0
  | decimal text => text.toList.head? == some '-'
  | double d => d.negative
  | _ => false

/-- Equality of values: doubles compare as numbers. -/
def same : Literal → Literal → Bool
  | double a, double b => a.same b
  | a, b => a == b

/-- The text of a double: infinities and NaN are written as calls. -/
def doubleSql (d : Double) : String :=
  if d.isNaN then "nan()"
  else if d.isInfinite then (if d.negative then "-infinity()" else "infinity()")
  else d.text

def sql : Literal → String
  | null => "NULL"
  | boolean true => "TRUE"
  | boolean false => "FALSE"
  | integer n => Text.signedDecimal n.toInt
  | decimal text => text
  | double d => doubleSql d
  | string text => Text.quote Text.stringMark text
  | binary bytes => "X" ++ Text.quote Text.stringMark (Text.hex bytes)

end Literal

end Sql
