import Mathlib.Algebra.Group.Int.Defs
import Mathlib.Algebra.Group.Nat.Defs

/-!
# IEEE 754 bit patterns

Double and single precision numbers are their bit patterns.  The conversions
to and from integers are computed on the sign, exponent and fraction fields.
-/

namespace BinaryNumbers

/-- A double precision number. -/
structure Binary64 where
  bits : UInt64
  deriving DecidableEq

/-- A single precision number. -/
structure Binary32 where
  bits : UInt32
  deriving DecidableEq

namespace Binary64

def negative (number : Binary64) : Bool :=
  number.bits.toNat.testBit 63

def exponent (number : Binary64) : Nat :=
  number.bits.toNat / 2 ^ 52 % 2 ^ 11

def fraction (number : Binary64) : Nat :=
  number.bits.toNat % 2 ^ 52

/-- Neither infinite nor a NaN. -/
def isFinite (number : Binary64) : Bool :=
  number.exponent != 2047

/-- The integer significand; the value is the significand times
`2 ^ (max exponent 1 - 1075)`, with the sign. -/
def significand (number : Binary64) : Nat :=
  if number.exponent = 0 then number.fraction else 2 ^ 52 + number.fraction

/-- The magnitude rounded toward zero. -/
def magnitude (number : Binary64) : Nat :=
  if 1075 ≤ number.exponent then
    number.significand * 2 ^ (number.exponent - 1075)
  else number.significand / 2 ^ (1075 - max number.exponent 1)

/-- The number rounded toward zero, if it is finite. -/
def truncated (number : Binary64) : Option Int :=
  if number.isFinite then
    some (if number.negative then -number.magnitude else number.magnitude)
  else none

/-- The bits of a natural number below `2 ^ 64`, rounded to nearest with ties
to even.  A carry out of the fraction moves into the exponent. -/
def bitsOfNat (number : Nat) : Nat :=
  let width := number.log2
  if number = 0 then 0
  else if width ≤ 52 then
    (1023 + width) * 2 ^ 52 + (number * 2 ^ (52 - width) - 2 ^ 52)
  else
    let unit := 2 ^ (width - 52)
    let quotient := number / unit
    let remainder := number % unit
    let roundUp := unit < 2 * remainder ∨
      (unit = 2 * remainder ∧ quotient % 2 = 1)
    (1023 + width) * 2 ^ 52 +
      ((if roundUp then quotient + 1 else quotient) - 2 ^ 52)

/-- The double nearest to an integer of magnitude below `2 ^ 64`. -/
def ofInt (number : Int) : Binary64 where
  bits := UInt64.ofNat
    ((if number < 0 then 2 ^ 63 else 0) + bitsOfNat number.natAbs)

end Binary64

namespace Binary32

def negative (number : Binary32) : Bool :=
  number.bits.toNat.testBit 31

def exponent (number : Binary32) : Nat :=
  number.bits.toNat / 2 ^ 23 % 2 ^ 8

def fraction (number : Binary32) : Nat :=
  number.bits.toNat % 2 ^ 23

/-- The exponent and fraction fields of the double of the same value.  A
subnormal single is a normal double. -/
def widenedBits (number : Binary32) : Nat :=
  if number.exponent = 255 then
    2047 * 2 ^ 52 + number.fraction * 2 ^ 29
  else if number.exponent = 0 then
    if number.fraction = 0 then 0
    else
      let width := number.fraction.log2
      (874 + width) * 2 ^ 52 +
        (number.fraction * 2 ^ (52 - width) - 2 ^ 52)
  else
    (number.exponent + 896) * 2 ^ 52 + number.fraction * 2 ^ 29

/-- The double of the same value. -/
def widen (number : Binary32) : Binary64 where
  bits := UInt64.ofNat
    ((if number.negative then 2 ^ 63 else 0) + number.widenedBits)

end Binary32

end BinaryNumbers
