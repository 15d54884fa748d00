import Sql.Parse.Name

/-! Parsing data types. `inner` parses the types one level of nesting down. -/
namespace Sql.Parser

/-- The largest number accepted as a parameter of a type. -/
def maxTypeParameter : Nat := 0xFFFFFFFF

def typeParameter : Parser Nat := do
  match ← peek with
  | .integer n =>
    if n < 0 ∨ maxTypeParameter < n.toInt then failAt (← here) .typeParameter
    else
      advance
      return n.toInt.toNat
  | _ => unexpected "integer type parameter"

def decimalType : Parser Scalar := do
  if ← check (.symbol .leftParen) then
    let span ← here
    advance
    let precision ← typeParameter
    let scale ← if ← eatSymbol .comma then typeParameter else pure 0
    expectSymbol .rightParen
    if precision = 0 ∨ DataType.maxPrecision < precision then failAt span .decimalPrecision
    else if precision < scale then failAt span .decimalScale
    else return .decimal precision scale
  else return .decimal DataType.maxPrecision 0

/-- A length in parentheses. -/
def typeLength : Parser Nat := do
  let span ← here
  let length ← parens typeParameter
  if length = 0 ∨ DataType.maxLength < length then failAt span .typeLength
  else return length

def timePrecision : Parser Nat := do
  if ← check (.symbol .leftParen) then
    let span ← here
    let precision ← parens typeParameter
    if DataType.maxTimePrecision < precision then failAt span .timePrecision
    else return precision
  else return DataType.defaultTimePrecision

/-- `WITH TIME ZONE` or `WITHOUT TIME ZONE`, if it follows. -/
def timeZone : Parser Bool := do
  let zoned ← check (.keyword .WITH)
  let zoneless ← checkWord "WITHOUT"
  if (zoned || zoneless) && (← peekAt 1).isWord "TIME" then
    advance
    advance
    unless ← eatWord "ZONE" do unexpected "ZONE"
    return zoned
  else return false

def intervalField : Parser IntervalField := do
  let kind ← peek
  match IntervalField.all.find? fun f => kind.isWord f.sql with
  | some f => advance; return f
  | none => unexpected "interval field"

/-- The rest of an interval type that started at `span`. -/
def intervalType (span : Span) : Parser Scalar := do
  let start ← intervalField
  unless ← eatWord "TO" do unexpected "TO"
  let stop ← intervalField
  match start, stop with
  | .year, .month => return .yearToMonth
  | .day, .second => return .dayToSecond
  | _, _ => failAt span (.intervalType start stop)

def arrayType (inner : Parser DataType) : Parser DataType := do
  if ← eatSymbol .lt then
    let element ← inner
    expectSymbol .gt
    return .array element
  else return .array (← parens inner)

def mapType (inner : Parser DataType) : Parser DataType := parens do
  let key ← inner
  expectSymbol .comma
  let value ← inner
  return .map key value

/-- A type that ends a field of a row. -/
def lastType (inner : Parser DataType) : Parser DataType := do
  let type ← inner
  match ← peek with
  | .symbol .comma | .symbol .rightParen => return type
  | _ => unexpected "',' or ')'"

/-- A type alone, or else a name and a type. -/
def rowField (inner : Parser DataType) : Parser RowField := do
  match ← attempt (lastType inner) with
  | .ok type => return ⟨none, type⟩
  | .error _ =>
    let x ← ident
    let type ← inner
    return ⟨some x.text, type⟩

def rowType (inner : Parser DataType) : Parser DataType :=
  return .row (← parens (commaList (rowField inner)))

/-- The type that starts with the given word, which stands at `span` and has been read. -/
def typeNamed (inner : Parser DataType) (span : Span) (word : String) : Parser DataType := do
  match word with
  | "BOOLEAN" => return .scalar .boolean
  | "TINYINT" => return .scalar .tinyint
  | "SMALLINT" => return .scalar .smallint
  | "INTEGER" | "INT" => return .scalar .integer
  | "BIGINT" => return .scalar .bigint
  | "REAL" => return .scalar .real
  | "DOUBLE" =>
    let _ ← eatWord "PRECISION"
    return .scalar .double
  | "DECIMAL" | "NUMERIC" => return .scalar (← decimalType)
  | "VARCHAR" =>
    return .scalar (.varchar (← optional (← check (.symbol .leftParen)) typeLength))
  | "CHAR" =>
    return .scalar (.char ((← optional (← check (.symbol .leftParen)) typeLength).getD 1))
  | "VARBINARY" => return .scalar .varbinary
  | "JSON" => return .scalar .json
  | "DATE" => return .scalar .date
  | "UNKNOWN" => return .unknown
  | "TIME" =>
    let precision ← timePrecision
    return .scalar (.time precision (← timeZone))
  | "TIMESTAMP" =>
    let precision ← timePrecision
    return .scalar (.timestamp precision (← timeZone))
  | "INTERVAL" => return .scalar (← intervalType span)
  | "ARRAY" => arrayType inner
  | "MAP" => mapType inner
  | "ROW" => rowType inner
  | _ => failAt span (.unknownType word)

def dataType (inner : Parser DataType) : Parser DataType := do
  let span ← here
  match ← peek with
  | .ident x =>
    if x.delimited then unexpected "data type"
    else
      advance
      typeNamed inner span x.text.toUpper
  | _ => unexpected "data type"

end Sql.Parser
