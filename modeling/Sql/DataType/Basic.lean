import Sql.Text.Digits
import Sql.Text.Quoted

/-! Data types and their text. -/
namespace Sql

/-- Types without components. -/
inductive Scalar where
  | boolean
  | tinyint
  | smallint
  | integer
  | bigint
  | real
  | double
  | decimal (precision scale : Nat)
  | varchar (length : Option Nat)
  | char (length : Nat)
  | varbinary
  | json
  | date
  | time (precision : Nat) (zoned : Bool)
  | timestamp (precision : Nat) (zoned : Bool)
  | yearToMonth
  | dayToSecond
deriving DecidableEq

mutual

inductive DataType where
  /-- Nothing is known, as for `NULL`. -/
  | unknown
  | scalar (kind : Scalar)
  | array (element : DataType)
  | map (key value : DataType)
  | row (fields : List RowField)

structure RowField where
  name : Option String
  type : DataType

end

namespace Scalar

/-- Digits that a fixed-width integer type needs. -/
def integralDigits? : Scalar → Option Nat
  | tinyint => some 3
  | smallint => some 5
  | integer => some 10
  | bigint => some 19
  | _ => none

def isIntegral (t : Scalar) : Bool := t.integralDigits?.isSome

def isFloating : Scalar → Bool
  | real | double => true
  | _ => false

def isDecimal : Scalar → Bool
  | decimal .. => true
  | _ => false

def isNumeric (t : Scalar) : Bool := t.isIntegral || t.isFloating || t.isDecimal

def isString : Scalar → Bool
  | varchar _ | char _ => true
  | _ => false

def isTemporal : Scalar → Bool
  | date | time .. | timestamp .. => true
  | _ => false

def isInterval : Scalar → Bool
  | yearToMonth | dayToSecond => true
  | _ => false

def temporalSql (word : String) (precision : Nat) (zoned : Bool) : String :=
  word ++ "(" ++ Text.decimal precision ++ ")" ++ (if zoned then " WITH TIME ZONE" else "")

def sql : Scalar → String
  | boolean => "BOOLEAN"
  | tinyint => "TINYINT"
  | smallint => "SMALLINT"
  | integer => "INTEGER"
  | bigint => "BIGINT"
  | real => "REAL"
  | double => "DOUBLE"
  | decimal p s => "DECIMAL(" ++ Text.decimal p ++ "," ++ Text.decimal s ++ ")"
  | varchar none => "VARCHAR"
  | varchar (some n) => "VARCHAR(" ++ Text.decimal n ++ ")"
  | char n => "CHAR(" ++ Text.decimal n ++ ")"
  | varbinary => "VARBINARY"
  | json => "JSON"
  | date => "DATE"
  | time p zoned => temporalSql "TIME" p zoned
  | timestamp p zoned => temporalSql "TIMESTAMP" p zoned
  | yearToMonth => "INTERVAL YEAR TO MONTH"
  | dayToSecond => "INTERVAL DAY TO SECOND"

end Scalar

namespace DataType

/-- Precision of a decimal when none is given, and the largest there is. -/
def maxPrecision : Nat := 38

/-- Digits of a second's fraction when none are given. -/
def defaultTimePrecision : Nat := 3

def maxTimePrecision : Nat := 12

def maxLength : Nat := 65536

@[match_pattern] def boolean : DataType := .scalar .boolean
@[match_pattern] def bigint : DataType := .scalar .bigint
@[match_pattern] def double : DataType := .scalar .double
@[match_pattern] def decimal (precision scale : Nat) : DataType :=
  .scalar (.decimal precision scale)
@[match_pattern] def varchar (length : Option Nat) : DataType := .scalar (.varchar length)

/-- Does a property of scalars hold? No other type has it. -/
def scalarIs (p : Scalar → Bool) : DataType → Bool
  | .scalar t => p t
  | _ => false

def isIntegral : DataType → Bool := scalarIs Scalar.isIntegral
def isFloating : DataType → Bool := scalarIs Scalar.isFloating
def isNumeric : DataType → Bool := scalarIs Scalar.isNumeric
def isString : DataType → Bool := scalarIs Scalar.isString
def isTemporal : DataType → Bool := scalarIs Scalar.isTemporal
def isInterval : DataType → Bool := scalarIs Scalar.isInterval

def integralDigits? : DataType → Option Nat
  | .scalar t => t.integralDigits?
  | _ => none

end DataType

mutual

def DataType.sql : DataType → String
  | .unknown => "UNKNOWN"
  | .scalar t => t.sql
  | .array t => "ARRAY(" ++ t.sql ++ ")"
  | .map k v => "MAP(" ++ k.sql ++ "," ++ v.sql ++ ")"
  | .row fields => "ROW(" ++ ",".intercalate (RowField.sqls fields) ++ ")"
termination_by structural t => t

def RowField.sql : RowField → String
  | ⟨none, t⟩ => t.sql
  | ⟨some name, t⟩ => Text.quote Text.nameMark name ++ " " ++ t.sql
termination_by structural f => f

def RowField.sqls : List RowField → List String
  | [] => []
  | f :: fs => f.sql :: RowField.sqls fs
termination_by structural fs => fs

end

mutual

def DataType.beq : DataType → DataType → Bool
  | .unknown, .unknown => true
  | .scalar t, .scalar u => t == u
  | .array t, .array u => t.beq u
  | .map k v, .map k' v' => k.beq k' && v.beq v'
  | .row fs, .row gs => RowField.beqs fs gs
  | _, _ => false
termination_by structural t => t

def RowField.beq : RowField → RowField → Bool
  | ⟨name, t⟩, ⟨name', u⟩ => name == name' && t.beq u
termination_by structural f => f

def RowField.beqs : List RowField → List RowField → Bool
  | [], [] => true
  | f :: fs, g :: gs => f.beq g && RowField.beqs fs gs
  | _, _ => false
termination_by structural fs => fs

end

mutual

theorem DataType.beq_iff : (t u : DataType) → (t.beq u = true ↔ t = u)
  | .unknown, u => by cases u <;> simp [DataType.beq]
  | .scalar t, u => by cases u <;> simp [DataType.beq]
  | .array t, u => by cases u <;> simp [DataType.beq, DataType.beq_iff t]
  | .map k v, u => by cases u <;> simp [DataType.beq, DataType.beq_iff k, DataType.beq_iff v]
  | .row fs, u => by cases u <;> simp [DataType.beq, RowField.beqs_iff fs]
termination_by structural t => t

theorem RowField.beq_iff : (f g : RowField) → (f.beq g = true ↔ f = g)
  | ⟨name, t⟩, ⟨name', u⟩ => by simp [RowField.beq, DataType.beq_iff t]
termination_by structural f => f

theorem RowField.beqs_iff : (fs gs : List RowField) → (RowField.beqs fs gs = true ↔ fs = gs)
  | [], gs => by cases gs <;> simp [RowField.beqs]
  | f :: fs, gs => by
    cases gs <;> simp [RowField.beqs, RowField.beq_iff f, RowField.beqs_iff fs]
termination_by structural fs => fs

end

instance : DecidableEq DataType := fun t u => decidable_of_iff _ (DataType.beq_iff t u)

instance : DecidableEq RowField := fun f g => decidable_of_iff _ (RowField.beq_iff f g)

end Sql
