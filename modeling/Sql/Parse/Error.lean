import Sql.DataType.Basic
import Sql.Invalid
import Sql.Token.Basic

/-! Why a text cannot be parsed. -/
namespace Sql

inductive ParseError.Cause where
  | unexpected (expected : String) (found : Token.Kind)
  | tooDeep
  | invalid (reason : Invalid)
  | unknownType (word : String)
  | intervalType (start stop : IntervalField)
  | decimalPrecision
  | decimalScale
  | typeLength
  | timePrecision
  | typeParameter
deriving DecidableEq

structure ParseError where
  cause : ParseError.Cause
  span : Span
deriving DecidableEq

namespace ParseError

/-- The message without the place. -/
def Cause.message : Cause → String
  | unexpected expected .endOfInput => "Unexpected end of input: expected " ++ expected
  | unexpected _ (.error cause) => cause.message
  | unexpected expected found =>
    "Unexpected token: expected " ++ expected ++ ", found " ++ found.describe
  | tooDeep => "Query is nested too deeply"
  | invalid reason => reason.message
  | unknownType word => "Unknown data type " ++ word
  | intervalType start stop => "Unsupported interval type " ++ start.sql ++ " TO " ++ stop.sql
  | decimalPrecision =>
    "DECIMAL precision must be between 1 and " ++ Text.decimal DataType.maxPrecision
  | decimalScale => "DECIMAL scale must not exceed its precision"
  | typeLength => "Length must be between 1 and " ++ Text.decimal DataType.maxLength
  | timePrecision => "Time precision must be at most " ++ Text.decimal DataType.maxTimePrecision
  | typeParameter => "Type parameter out of range"

def message (e : ParseError) : String :=
  e.cause.message ++ " at byte " ++ Text.decimal e.span.start

/-- What was looked for, if a token did not fit. -/
def expected? (e : ParseError) : Option String :=
  match e.cause with
  | .unexpected expected _ => some expected
  | _ => none

/-- The token that did not fit. -/
def found? (e : ParseError) : Option Token.Kind :=
  match e.cause with
  | .unexpected _ found => some found
  | _ => none

end ParseError

end Sql
