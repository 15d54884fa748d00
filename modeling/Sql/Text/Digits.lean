/-! Whole numbers as decimal digits. -/
namespace Sql.Text

/-- The number that a run of decimal digits writes. -/
def digitsValue (digits : List Char) : Nat :=
  digits.foldl (fun value c => 10 * value + (c.toNat - '0'.toNat)) 0

def decimal (n : Nat) : String := String.ofList (Nat.toDigits 10 n)

/-- A minus sign and no plus sign stands before the digits. -/
def signedDecimal (n : Int) : String :=
  if n < 0 then "-" ++ decimal n.natAbs else decimal n.natAbs

/-- The digits at the front, and what follows them. -/
def takeDigits (cs : List Char) : List Char × List Char :=
  (cs.takeWhile Char.isDigit, cs.dropWhile Char.isDigit)

/-- Reads a text of digits only. -/
def natural? (text : String) : Option Nat :=
  if text.isEmpty || !text.toList.all Char.isDigit then none else some (digitsValue text.toList)

/-- Reads digits with an optional sign. -/
def integer? (text : String) : Option Int :=
  match text.toList with
  | '-' :: digits => (natural? (String.ofList digits)).map fun n => -(n : Int)
  | '+' :: digits => (natural? (String.ofList digits)).map Int.ofNat
  | _ => (natural? text).map Int.ofNat

end Sql.Text
