/-! Double-precision numbers, held as their binary64 encoding. -/
namespace Sql

structure Double where
  negative : Bool
  /-- The encoding without its sign bit, so that a larger code is a larger magnitude. -/
  code : BitVec 63
deriving DecidableEq

namespace Double

/-- How many codes share an exponent. -/
def binade : Nat := Nat.pow 2 52

/-- Codes from here on encode no finite number. -/
def infiniteCode : Nat := 2047 * binade

def zero : Double := ⟨false, 0⟩
def infinity : Double := ⟨false, .ofNat 63 infiniteCode⟩
def nan : Double := ⟨false, .ofNat 63 (infiniteCode + binade / 2)⟩

def isNaN (d : Double) : Bool := infiniteCode < d.code.toNat
def isInfinite (d : Double) : Bool := d.code.toNat == infiniteCode
def isZero (d : Double) : Bool := d.code.toNat == 0

/-- A finite magnitude is `mantissa * 2 ^ exponent`. -/
def mantissa (d : Double) : Nat :=
  if d.code.toNat < binade then d.code.toNat else d.code.toNat % binade + binade

def exponent (d : Double) : Int := (Nat.max (d.code.toNat / binade) 1 : Nat) - 1075

/-- Numeric equality: the two zeros agree, and a NaN differs from everything. -/
def same (a b : Double) : Bool :=
  !a.isNaN && !b.isNaN && (a == b || (a.isZero && b.isZero))

end Double

end Sql
