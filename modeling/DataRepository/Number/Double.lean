/-!
# Doubles

A binary64 value held as its sixty-four bits, so that equality is decidable and tells `0.0` from
`-0.0`.  Its magnitude is `significand * 2 ^ exponent`.
-/
namespace DataRepository

/-- A binary64 value. -/
structure Double where
  bits : UInt64
deriving DecidableEq

namespace Double

def toFloat (d : Double) : Float := Float.ofBits d.bits

/-- The bits of a computed value. -/
def ofFloat (x : Float) : Double := ⟨x.toBits⟩

/-- Whether the sign bit is set. -/
def isNegative (d : Double) : Bool := 0x8000000000000000 ≤ d.bits.toNat

def exponentField (d : Double) : Nat := d.bits.toNat / 0x10000000000000 % 0x800

/-- The fifty-two stored bits of the significand. -/
def fractionField (d : Double) : Nat := d.bits.toNat % 0x10000000000000

/-- Whether the value is a number, neither infinite nor undefined. -/
def isFinite (d : Double) : Bool := d.exponentField != 2047

def isNaN (d : Double) : Bool := d.exponentField == 2047 && d.fractionField != 0

/-- The significand of the magnitude as an integer. -/
def significand (d : Double) : Nat :=
  if d.exponentField = 0 then d.fractionField else 0x10000000000000 + d.fractionField

/-- The power of two that the significand is multiplied by. -/
def exponent (d : Double) : Int := (max d.exponentField 1 : Nat) - 1075

/-- Whether the value is zero, of either sign. -/
def isZero (d : Double) : Bool := d.significand == 0

/-- Zero with the sign bit set. -/
def negativeZero : Double := ⟨0x8000000000000000⟩

example : (ofFloat 1.5).significand * 2 = 3 * 0x10000000000000 ∧ (ofFloat 1.5).exponent = -52 := by decide

end Double

end DataRepository
