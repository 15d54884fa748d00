import Sql.DataType.Basic

/-! The narrowest type that two types can both be turned into. -/
namespace Sql

/-- Enough digits before and after the point for both decimals, up to the largest precision. -/
def Scalar.decimalJoin (p₁ s₁ p₂ s₂ : Nat) : Scalar :=
  let scale := max s₁ s₂
  .decimal (min (max (p₁ - s₁) (p₂ - s₂) + scale) DataType.maxPrecision) scale

/-- The common type of two scalars, for one order of the operands. -/
def Scalar.widen? : Scalar → Scalar → Option Scalar
  | .decimal p₁ s₁, .decimal p₂ s₂ => some (decimalJoin p₁ s₁ p₂ s₂)
  | .double, u => if u.isNumeric then some .double else none
  | .real, u => if u.isIntegral || u.isDecimal then some .real else none
  | .varchar m, .varchar n => some (.varchar (do return max (← m) (← n)))
  | .char m, .char n => some (.char (max m n))
  | .char m, .varchar (some n) => some (.char (max m n))
  | .char _, .varchar none => some (.varchar none)
  | .timestamp p z, .timestamp p' z' => some (.timestamp (max p p') (z || z'))
  | .timestamp p z, .date => some (.timestamp p z)
  | .time p z, .time p' z' => some (.time (max p p') (z || z'))
  | t, .decimal p s => t.integralDigits?.map fun digits => decimalJoin digits 0 p s
  | t, u => do
    let m ← t.integralDigits?
    let n ← u.integralDigits?
    return if n ≤ m then t else u

def Scalar.supertype? (t u : Scalar) : Option Scalar :=
  if t = u then some t else (widen? t u).or (widen? u t)

mutual

/-- The common type, if there is one: an unknown type gives way to any other, and types with
components are joined component by component. -/
def DataType.supertype? : DataType → DataType → Option DataType
  | .unknown, u => some u
  | t, .unknown => some t
  | .scalar t, .scalar u => (t.supertype? u).map .scalar
  | .array t, .array u => (t.supertype? u).map .array
  | .map k v, .map k' v' => do
    let key ← k.supertype? k'
    let value ← v.supertype? v'
    return .map key value
  | .row fs, .row gs => (RowField.supertypes? fs gs).map .row
  | _, _ => none
termination_by structural t => t

/-- Fields keep a name on which both sides agree. -/
def RowField.supertype? : RowField → RowField → Option RowField
  | ⟨name, t⟩, ⟨name', u⟩ =>
    (t.supertype? u).map fun type => ⟨if name = name' then name else none, type⟩
termination_by structural f => f

def RowField.supertypes? : List RowField → List RowField → Option (List RowField)
  | [], [] => some []
  | f :: fs, g :: gs => do
    let field ← f.supertype? g
    let fields ← RowField.supertypes? fs gs
    return field :: fields
  | _, _ => none
termination_by structural fs => fs

end

/-- The common type of many, unknown if two of them conflict. -/
def DataType.supertypeAll (types : List DataType) : DataType :=
  (types.foldlM DataType.supertype? .unknown).getD .unknown

end Sql
