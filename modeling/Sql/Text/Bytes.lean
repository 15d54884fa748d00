/-! Bytes of text, and bytes written as hexadecimal digits. -/
namespace Sql.Text

/-- Bytes that the characters take in UTF-8. -/
def byteLength : List Char → Nat
  | [] => 0
  | c :: cs => c.utf8Size + byteLength cs

/-- The value of a hexadecimal digit; letters may have either case. -/
def hexValue? (c : Char) : Option Nat :=
  if c.isDigit then some (c.toNat - '0'.toNat)
  else if 'a' ≤ c ∧ c ≤ 'f' then some (c.toNat - 'a'.toNat + 10)
  else if 'A' ≤ c ∧ c ≤ 'F' then some (c.toNat - 'A'.toNat + 10)
  else none

def hexDigit (n : Nat) : Char := "0123456789ABCDEF".toList.getD n '0'

/-- Two digits for each byte. -/
def hex (bytes : List UInt8) : String :=
  String.ofList (bytes.flatMap fun b => [hexDigit (b.toNat / 16), hexDigit (b.toNat % 16)])

/-- Pairs of digits as bytes; an odd one at the end is left out. -/
def pairBytes : List Nat → List UInt8
  | high :: low :: rest => UInt8.ofNat (16 * high + low) :: pairBytes rest
  | _ => []

/-- The bytes that a run of digits writes. -/
def unhex? (digits : List Char) : Option (List UInt8) := (digits.mapM hexValue?).map pairBytes

end Sql.Text
