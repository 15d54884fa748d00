import Sql.Double.Basic
import Sql.Text.Digits

/-! Reading decimal text as the nearest double. -/
namespace Sql.Double

/-- The quotient rounded to the nearest whole number, a half to the even one. -/
def roundHalfEven (num den : Nat) : Nat :=
  let quotient := num / den
  let twice := 2 * (num % den)
  if twice < den then quotient
  else if den < twice then quotient + 1
  else quotient + quotient % 2

/-- Numerator and denominator of `num / den / 2 ^ power`. -/
def scaleBy (num den : Nat) (power : Int) : Nat × Nat :=
  if 0 ≤ power then (num, den * Nat.pow 2 power.toNat) else (num * Nat.pow 2 (-power).toNat, den)

/-- The code of the magnitude nearest to `num / den`, a tie going to the even mantissa. The exponent
is chosen to leave 53 bits before the point, as far as the smallest exponent allows. -/
def nearestCode (num den : Nat) : Nat :=
  if num = 0 then 0
  else
    let guess : Int := max ((num.log2 : Int) - den.log2 - 53) (-1074)
    let (n, d) := scaleBy num den guess
    let power := if 2 * binade ≤ n / d then guess + 1 else guess
    let (n, d) := scaleBy num den power
    min ((power + 1074).toNat * binade + roundHalfEven n d) infiniteCode

/-- The code nearest to `digits * 10 ^ power`, for a number of `count` digits. Far outside the range
of doubles the answer is known without computing the power. -/
def decimalCode (digits count : Nat) (power : Int) : Nat :=
  if digits = 0 ∨ count + power < -330 then 0
  else if 330 < power then infiniteCode
  else if 0 ≤ power then nearestCode (digits * Nat.pow 10 power.toNat) 1
  else nearestCode digits (Nat.pow 10 (-power).toNat)

/-- An optional sign in front of the rest. -/
def takeSign : List Char → Bool × List Char
  | '-' :: cs => (true, cs)
  | '+' :: cs => (false, cs)
  | cs => (false, cs)

/-- The value of an exponent part, if the characters are exactly one or are absent. -/
def exponentPart? : List Char → Option Int
  | [] => some 0
  | c :: cs =>
    if c.toLower = 'e' then
      let (negative, digits) := takeSign cs
      if digits.isEmpty || !digits.all Char.isDigit then none
      else
        let value : Int := Text.digitsValue digits
        some (if negative then -value else value)
    else none

/-- Digits with an optional point and exponent, at least one digit before the exponent. -/
def magnitude? (cs : List Char) : Option Nat :=
  let (whole, rest) := Text.takeDigits cs
  let (fraction, rest) := match rest with
    | '.' :: rest => Text.takeDigits rest
    | rest => ([], rest)
  let digits := whole ++ fraction
  if digits.isEmpty then none
  else (exponentPart? rest).map fun power =>
    decimalCode (Text.digitsValue digits) digits.length (power - fraction.length)

/-- Reads a decimal number or a name of an infinity or of NaN, in any case and with a sign. -/
def ofText? (text : String) : Option Double :=
  let (negative, cs) := takeSign text.toList
  match String.ofList (cs.map Char.toLower) with
  | "inf" | "infinity" => some ⟨negative, infinity.code⟩
  | "nan" => some ⟨negative, nan.code⟩
  | _ => (magnitude? cs).map fun code => ⟨negative, .ofNat 63 code⟩

end Sql.Double
