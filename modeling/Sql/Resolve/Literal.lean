import Sql.DataType.Supertype
import Sql.Literal
import Sql.Schema
import Sql.Text.Blank
import Sql.Text.Bytes

/-! The types of literals, operators and parts of rows. -/
namespace Sql

/-- Without the blanks at both ends. -/
def Text.trim (cs : List Char) : List Char :=
  ((cs.dropWhile isBlank).reverse.dropWhile isBlank).reverse

/-- The largest length that a type of strings can state. -/
def DataType.maxStatedLength : Nat := 0xFFFFFFFF

/-- The type of a string of a known length. -/
def DataType.ofLength (length : Nat) : DataType :=
  .varchar (if length ≤ maxStatedLength then some length else none)

/-- The decimal type for the digits of a number: leading zeros do not count, and both parameters
stop at the largest precision. -/
def DataType.ofDecimalText (text : String) : DataType :=
  let digits := (Text.trim text.toList).dropWhile fun c => c == '+' || c == '-'
  let whole := (digits.takeWhile (· != '.')).dropWhile (· == '0')
  let fraction := (digits.dropWhile (· != '.')).drop 1
  let scale := min (Text.byteLength fraction) maxPrecision
  let precision := min (Text.byteLength whole + Text.byteLength fraction) maxPrecision
  .decimal (max (max precision 1) scale) scale

/-- Whole numbers of 32 bits are integers, and all others are large ones. -/
def DataType.ofInteger (n : Int) : DataType :=
  .scalar (if -0x80000000 ≤ n ∧ n ≤ 0x7FFFFFFF then .integer else .bigint)

def Literal.type : Literal → DataType
  | .null => .unknown
  | .boolean _ => .boolean
  | .integer n => .ofInteger n.toInt
  | .decimal text => .ofDecimalText text
  | .double _ => .double
  | .string text => .ofLength text.length
  | .binary _ => .scalar .varbinary

/-- The fractional digits of a time of day, and whether an offset from universal time is part of
it. -/
def timeParts (time : String) : Nat × Bool :=
  let cs := time.toList
  let fraction := ((cs.dropWhile (· != '.')).drop 1).takeWhile Char.isDigit
  let zoned := cs.contains '+' || cs.contains '-' || cs.getLast?.any fun c => c == 'Z' || c == 'z'
  (min fraction.length DataType.maxTimePrecision, zoned)

/-- The type of a time of day; another word behind it names a zone. -/
def timeType (build : Nat → Bool → Scalar) (words : List String) : DataType :=
  let (precision, zoned) := timeParts (words.headD "")
  .scalar (build precision (zoned || 1 < words.length))

/-- The type of a literal that names its type. -/
def typedLiteralType (type text : String) : DataType :=
  let words := Text.words Text.isBlank text
  match type with
  | "DATE" => .scalar .date
  | "TIMESTAMP" => timeType .timestamp (words.drop 1)
  | "TIME" => timeType .time words
  | "DECIMAL" | "NUMERIC" => .ofDecimalText text
  | "JSON" => .scalar .json
  | "BOOLEAN" => .boolean
  | "TINYINT" => .scalar .tinyint
  | "SMALLINT" => .scalar .smallint
  | "INTEGER" | "INT" => .scalar .integer
  | "BIGINT" => .bigint
  | "REAL" => .scalar .real
  | "DOUBLE" => .double
  | "VARCHAR" => .ofLength text.length
  | "CHAR" => .scalar (.char (max (min text.length DataType.maxStatedLength) 1))
  | "VARBINARY" => .scalar .varbinary
  | _ => .unknown

namespace DataType

/-- The common type of two types that have to agree at `place`. -/
def agree (place : Place) (left right : DataType) : Except ResolveError DataType :=
  match left.supertype? right with
  | some type => .ok type
  | none => .error (.typeMismatch place left right)

/-- The type of the field of a row; nothing is known about anything else. -/
def fieldType (name : Ident) : DataType → DataType
  | .row fields =>
    match fields.find? fun f => f.name.any fun text => (Ident.plain text).same name with
    | some f => f.type
    | none => .unknown
  | _ => .unknown

/-- The type at a position of a row, counted from one. -/
def itemType (position : Int) (fields : List RowField) : DataType :=
  if 0 < position then
    match fields[(position - 1).toNat]? with
    | some f => f.type
    | none => .unknown
  else .unknown

/-- The columns that a value unnests into. -/
def unnested : DataType → List DataType
  | .array element => [element]
  | .map key value => [key, value]
  | _ => [.unknown]

end DataType

/-- Dates and times take intervals, and their differences are intervals; all else has to agree. -/
def arithmeticType (op : BinaryOp) (left right : DataType) : Except ResolveError DataType :=
  if op = .sub ∧ left.isTemporal ∧ right.isTemporal then .ok (.scalar .dayToSecond)
  else if (op = .add ∨ op = .sub) ∧ left.isTemporal ∧ right.isInterval then .ok left
  else if op = .add ∧ left.isInterval ∧ right.isTemporal then .ok right
  else left.agree (.operands op) right

def BinaryOp.type (op : BinaryOp) (left right : DataType) : Except ResolveError DataType :=
  if op.isLogical || op.isComparison then .ok .boolean
  else if op = .concat then
    match left, right with
    | .array _, _ | _, .array _ => left.agree .arrayConcat right
    | _, _ => .ok (.varchar none)
  else arithmeticType op left right

def UnaryOp.type (op : UnaryOp) (operand : DataType) : DataType :=
  match op with
  | .not => .boolean
  | .minus | .plus => operand

end Sql
