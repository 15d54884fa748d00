import Sql.DataType.Basic
import Sql.Json.Basic

/-! Data types in JSON documents. -/
namespace Sql.Json

/-- How many arrays and objects may stand inside each other. -/
def maxNesting : Nat := 127

def maxByte : Nat := 0xFF

def maxWord : Nat := 0xFFFFFFFF

/-- Types that are written as their name alone. -/
def plainType? : String → Option DataType
  | "Boolean" => some (.scalar .boolean)
  | "Tinyint" => some (.scalar .tinyint)
  | "Smallint" => some (.scalar .smallint)
  | "Integer" => some (.scalar .integer)
  | "Bigint" => some (.scalar .bigint)
  | "Real" => some (.scalar .real)
  | "Double" => some (.scalar .double)
  | "Varbinary" => some (.scalar .varbinary)
  | "Json" => some (.scalar .json)
  | "Date" => some (.scalar .date)
  | "IntervalYearToMonth" => some (.scalar .yearToMonth)
  | "IntervalDayToSecond" => some (.scalar .dayToSecond)
  | "Unknown" => some .unknown
  | _ => none

/-- The parameters of a type under their keys. A `positional` reader also takes an array of them. -/
def parameters? (positional : Bool) (keys : List String) (value : Json) :
    Option (List (Option Json)) :=
  if positional then value.record? keys else value.keyed? keys

/-- A time or timestamp. -/
def temporal? (positional : Bool) (build : Nat → Bool → Scalar) (value : Json) :
    Option DataType := do
  match ← parameters? positional ["precision", "with_time_zone"] value with
  | [some precision, some zoned] =>
    return .scalar (build (← precision.asNat? maxByte) (← zoned.asBool?))
  | _ => none

def decimal? (positional : Bool) (value : Json) : Option DataType := do
  match ← parameters? positional ["precision", "scale"] value with
  | [some precision, some scale] =>
    return .decimal (← precision.asNat? maxByte) (← scale.asNat? maxByte)
  | _ => none

def varchar? : Json → Option DataType
  | .null => some (.varchar none)
  | value => (value.asNat? maxWord).map fun n => .varchar (some n)

/-- Types whose parameters are numbers; `room` is the nesting left for the parameters. -/
def scalarType? (positional : Bool) (room : Nat) (tag : String) (value : Json) : Option DataType :=
  match tag, value with
  | "Varchar", _ => varchar? value
  | "Char", _ => (value.asNat? maxWord).map fun n => .scalar (.char n)
  | "Decimal", _ => if room = 0 then none else decimal? positional value
  | "Time", _ => if room = 0 then none else temporal? positional .time value
  | "Timestamp", _ => if room = 0 then none else temporal? positional .timestamp value
  | _, .null => plainType? tag
  | _, _ => none

def fieldName? : Json → Option (Option String)
  | .null => some none
  | value => value.asString?.map some

/-- A field of a row, given a reader of its type. -/
def rowField? (type? : Json → Option DataType) (value : Json) : Option RowField := do
  match ← value.record? ["name", "type"] with
  | [name, some type] => return ⟨← decodeOr? none fieldName? name, ← type? type⟩
  | _ => none

/-- A type is a name, or an object whose only key names it. At most `room` arrays and objects stand
inside each other. Only a `positional` reader takes an array for the parameters of a decimal, time
or timestamp; the fields of a row may be arrays either way. -/
def dataType? (positional : Bool) : Nat → Json → Option DataType
  | _, .string tag => plainType? tag
  | room + 1, .object [("Array", element)] => (dataType? positional room element).map .array
  | room + 2, .object [("Map", .array [key, value])] => do
    return .map (← dataType? positional room key) (← dataType? positional room value)
  | _ + 2, .object [("Row", .array [])] => some (.row [])
  | room + 3, .object [("Row", .array fields)] =>
    (fields.mapM (rowField? (dataType? positional room))).map .row
  | room + 1, .object [(tag, value)] => scalarType? positional room tag value
  | _, _ => none

def ofTemporal (tag : String) (precision : Nat) (zoned : Bool) : Json :=
  .object [(tag, .object [("precision", .integer precision), ("with_time_zone", .boolean zoned)])]

def ofScalar : Scalar → Json
  | .boolean => .string "Boolean"
  | .tinyint => .string "Tinyint"
  | .smallint => .string "Smallint"
  | .integer => .string "Integer"
  | .bigint => .string "Bigint"
  | .real => .string "Real"
  | .double => .string "Double"
  | .decimal p s =>
    .object [("Decimal", .object [("precision", .integer p), ("scale", .integer s)])]
  | .varchar n => .object [("Varchar", n.elim .null fun n => .integer n)]
  | .char n => .object [("Char", .integer n)]
  | .varbinary => .string "Varbinary"
  | .json => .string "Json"
  | .date => .string "Date"
  | .time p zoned => ofTemporal "Time" p zoned
  | .timestamp p zoned => ofTemporal "Timestamp" p zoned
  | .yearToMonth => .string "IntervalYearToMonth"
  | .dayToSecond => .string "IntervalDayToSecond"

mutual

/-- The document of a type, as `dataType?` reads it. -/
def ofDataType : DataType → Json
  | .unknown => .string "Unknown"
  | .scalar t => ofScalar t
  | .array t => .object [("Array", ofDataType t)]
  | .map k v => .object [("Map", .array [ofDataType k, ofDataType v])]
  | .row fields => .object [("Row", .array (ofRowFields fields))]
termination_by structural t => t

def ofRowField : RowField → Json
  | ⟨name, t⟩ => .object [("name", name.elim .null .string), ("type", ofDataType t)]
termination_by structural f => f

def ofRowFields : List RowField → List Json
  | [] => []
  | f :: fields => ofRowField f :: ofRowFields fields
termination_by structural fields => fields

end

end Sql.Json
