import Sql.Double.Basic
import Sql.Text.Digits

/-! Writing a double with the fewest digits that read back as it. -/
namespace Sql.Double

/-- A decimal number `digits * 10 ^ power`. -/
structure Decimal where
  digits : Nat
  power : Int
deriving DecidableEq

/-- The fraction `num / den` with an exact power of a base moved into it. -/
def times (num den base : Nat) (power : Int) : Nat × Nat :=
  if 0 ≤ power then (num * Nat.pow base power.toNat, den)
  else (num, den * Nat.pow base (-power).toNat)

/-- The place of the first digit of `num / den`: the greatest power of ten not above it. -/
def leadingPower (num den : Nat) : Int :=
  let guess : Int := (Nat.toDigits 10 num).length - (Nat.toDigits 10 den).length
  let (n, d) := times num den 10 (-guess)
  if d ≤ n then guess else guess - 1

/-- Bounds of the reals that round to a finite magnitude, in quarters of its last binary place. The
gap below a power of two is half as wide as the gap above it. -/
def quarterBounds (mantissa : Nat) (exponent : Int) : Nat × Nat :=
  (4 * mantissa - (if mantissa = binade ∧ -1074 < exponent then 1 else 2), 4 * mantissa + 2)

/-- Does `candidate` round to the magnitude? An end of the interval does when the mantissa is
even. -/
def readsBack (mantissa : Nat) (exponent : Int) (candidate : Decimal) : Bool :=
  let (low, high) := quarterBounds mantissa exponent
  let (unitNum, unitDen) := times 1 1 2 (exponent - 2)
  let (n, d) := times candidate.digits 1 10 candidate.power
  let point := n * unitDen
  let below := low * unitNum * d
  let above := high * unitNum * d
  if mantissa % 2 = 0 then below ≤ point && point ≤ above else below < point && point < above

/-- The neighbour of the value that has `count` digits and reads back, the nearer if both do and the
upper if they are equally near. -/
def withDigits? (mantissa : Nat) (exponent : Int) (count : Nat) : Option Decimal :=
  let (num, den) := times mantissa 1 2 exponent
  let power := leadingPower num den - count + 1
  let (n, d) := times num den 10 (-power)
  let lower : Decimal := ⟨n / d, power⟩
  let upper : Decimal := ⟨n / d + 1, power⟩
  let ordered := if 2 * (n % d) < d then [lower, upper] else [upper, lower]
  ordered.find? (readsBack mantissa exponent)

/-- The fewest digits that read back; seventeen always do. -/
def shortest (mantissa : Nat) (exponent : Int) : Decimal :=
  let candidate := (List.range 17).findSome? fun k => withDigits? mantissa exponent (k + 1)
  candidate.getD ⟨mantissa, exponent⟩

/-- One digit, the rest behind a point, and the power of ten behind an `E`. -/
def Decimal.scientific (value : Decimal) : String :=
  let digits := Nat.toDigits 10 value.digits
  let power := value.power + (digits.length - 1 : Nat)
  let kept := (digits.reverse.dropWhile (· == '0')).reverse
  let mantissa := match kept with
    | [] => ['0']
    | [c] => [c]
    | c :: cs => c :: '.' :: cs
  String.ofList mantissa ++ "E" ++ Text.signedDecimal power

/-- Scientific notation, or a name for what is not finite. -/
def text (d : Double) : String :=
  if d.isNaN then "NaN"
  else
    let sign := if d.negative then "-" else ""
    if d.isInfinite then sign ++ "inf"
    else if d.isZero then sign ++ "0E0"
    else sign ++ (shortest d.mantissa d.exponent).scientific

end Sql.Double
