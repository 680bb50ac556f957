import Jib.BinaryNumbers
import Mathlib.Algebra.Order.Field.Rat
import Mathlib.Data.Nat.Log
import Mathlib.Tactic.Ring

/-!
# Conversions between bit patterns and integers

A double is put together from its three fields, so what a conversion gives is
read off the fields that it computes.  Integers of magnitude up to `2 ^ 53` are
doubles exactly, and a single precision number is a double exactly.
-/

namespace BinaryNumbers

/-! ## Fields -/

namespace Binary64

def ofFields (negative : Bool) (exponent fraction : Nat) : Binary64 where
  bits := UInt64.ofNat ((if negative then 2 ^ 63 else 0) + (exponent * 2 ^ 52 + fraction))

variable {sign : Bool} {field rest : Nat}

theorem toNat_bits_ofFields (exponentBound : field < 2 ^ 11) (fractionBound : rest < 2 ^ 52) :
    (ofFields sign field rest).bits.toNat =
      (if sign then 2 ^ 63 else 0) + (field * 2 ^ 52 + rest) := by
  unfold ofFields
  rw [UInt64.toNat_ofNat']
  apply Nat.mod_eq_of_lt
  split <;> omega

theorem negative_eq_decide (number : Binary64) :
    number.negative = decide (2 ^ 63 ≤ number.bits.toNat) := by
  have bound := number.bits.toNat_lt
  rw [negative, Nat.testBit_eq_decide_div_mod_eq]
  congr 1
  simp only [eq_iff_iff]
  omega

theorem negative_ofFields (exponentBound : field < 2 ^ 11) (fractionBound : rest < 2 ^ 52) :
    (ofFields sign field rest).negative = sign := by
  rw [negative_eq_decide, toNat_bits_ofFields exponentBound fractionBound]
  cases sign
  · simp
    omega
  · simp

theorem exponent_ofFields (exponentBound : field < 2 ^ 11) (fractionBound : rest < 2 ^ 52) :
    (ofFields sign field rest).exponent = field := by
  rw [exponent, toNat_bits_ofFields exponentBound fractionBound]
  cases sign
  · simp
    omega
  · simp
    omega

theorem fraction_ofFields (exponentBound : field < 2 ^ 11) (fractionBound : rest < 2 ^ 52) :
    (ofFields sign field rest).fraction = rest := by
  rw [fraction, toNat_bits_ofFields exponentBound fractionBound]
  cases sign
  · simp
    omega
  · simp
    omega

/-- A double is made of its fields. -/
theorem eq_ofFields (number : Binary64) :
    number = ofFields number.negative number.exponent number.fraction := by
  have bound := number.bits.toNat_lt
  have bits : (if number.negative then 2 ^ 63 else 0) +
      (number.exponent * 2 ^ 52 + number.fraction) = number.bits.toNat := by
    rw [negative_eq_decide]
    unfold exponent fraction
    split <;> simp_all <;> omega
  rw [ofFields, bits, UInt64.ofNat_toNat]

/-- A double with a normal exponent. -/
theorem significand_ofFields (exponentBound : field < 2 ^ 11) (fractionBound : rest < 2 ^ 52)
    (normal : field ≠ 0) : (ofFields sign field rest).significand = 2 ^ 52 + rest := by
  rw [significand, exponent_ofFields exponentBound fractionBound,
    fraction_ofFields exponentBound fractionBound, if_neg normal]

/-- The exponent field is all ones and the fraction is not zero. -/
def isNaN (number : Binary64) : Bool :=
  number.exponent == 2047 && number.fraction != 0

/-- The value of a finite double. -/
def value (number : Binary64) : ℚ :=
  (if number.negative then -1 else 1) * number.significand *
    2 ^ ((max number.exponent 1 : ℤ) - 1075)

theorem isNaN_of_truncated {number : Binary64} {integer : Int}
    (truncated : number.truncated = some integer) : number.isNaN = false := by
  unfold Binary64.truncated isFinite at truncated
  split at truncated
  · rename_i finite
    have notSpecial : number.exponent ≠ 2047 := by simpa using finite
    simp [isNaN, notSpecial]
  · cases truncated

theorem mul_two_pow_mul_zpow (number shift : Nat) (power : ℤ) :
    ((number * 2 ^ shift : Nat) : ℚ) * 2 ^ power = number * 2 ^ (power + shift) := by
  rw [zpow_add₀ two_ne_zero, zpow_natCast]
  push_cast
  ring

end Binary64

/-! ## Integers as doubles -/

namespace Binary64

/-- The leading bit of a number moved to bit 52. -/
theorem two_pow_le_normalized {number : Nat} (positive : number ≠ 0)
    (small : number.log2 ≤ 52) :
    2 ^ 52 ≤ number * 2 ^ (52 - number.log2) ∧ number * 2 ^ (52 - number.log2) < 2 ^ 53 := by
  have below := Nat.log2_self_le positive
  have above := Nat.lt_log2_self (n := number)
  constructor
  · calc 2 ^ 52 = 2 ^ number.log2 * 2 ^ (52 - number.log2) := by
          rw [← Nat.pow_add, Nat.add_sub_cancel' small]
      _ ≤ number * 2 ^ (52 - number.log2) := Nat.mul_le_mul_right _ below
  · calc number * 2 ^ (52 - number.log2)
        < 2 ^ (number.log2 + 1) * 2 ^ (52 - number.log2) :=
          Nat.mul_lt_mul_of_pos_right above (Nat.two_pow_pos _)
      _ = 2 ^ 53 := by
          rw [← Nat.pow_add]
          congr 1
          omega

/-- A number of at most 53 bits is a double with the bits of the number. -/
theorem ofInt_eq_ofFields {number : Int} (nonzero : number ≠ 0)
    (small : number.natAbs.log2 ≤ 52) :
    ofInt number = ofFields (decide (number < 0)) (1023 + number.natAbs.log2)
      (number.natAbs * 2 ^ (52 - number.natAbs.log2) - 2 ^ 52) := by
  have positive : number.natAbs ≠ 0 := by omega
  simp [ofInt, ofFields, bitsOfNat, positive, small]

/-- A number of magnitude up to `2 ^ 53` has at most 53 bits or is a power of two. -/
theorem log2_le_or_eq {number : Int} (small : number.natAbs ≤ 2 ^ 53) :
    number.natAbs.log2 ≤ 52 ∨ number = 2 ^ 53 ∨ number = -2 ^ 53 := by
  rcases Nat.lt_or_eq_of_le small with less | equal
  · left
    by_cases isZero : number.natAbs = 0
    · simp [isZero]
    · have := (Nat.log2_lt isZero).mpr less
      omega
  · omega

theorem truncated_ofInt_of_log2_le {number : Int} (small : number.natAbs.log2 ≤ 52) :
    (ofInt number).truncated = some number := by
  by_cases isZero : number = 0
  · subst isZero
    decide +kernel
  have positive : number.natAbs ≠ 0 := by omega
  obtain ⟨low, high⟩ := two_pow_le_normalized positive small
  have exponentBound : 1023 + number.natAbs.log2 < 2 ^ 11 := by omega
  have fractionBound : number.natAbs * 2 ^ (52 - number.natAbs.log2) - 2 ^ 52 < 2 ^ 52 := by
    omega
  have normal : 1023 + number.natAbs.log2 ≠ 0 := by omega
  have isMagnitude : (ofInt number).magnitude = number.natAbs := by
    rw [ofInt_eq_ofFields isZero small, magnitude,
      significand_ofFields exponentBound fractionBound normal,
      exponent_ofFields exponentBound fractionBound, Nat.add_sub_cancel' low]
    split
    · have isLast : number.natAbs.log2 = 52 := by omega
      simp [isLast]
    · have shift : 1075 - max (1023 + number.natAbs.log2) 1 = 52 - number.natAbs.log2 := by
        omega
      rw [shift, Nat.mul_div_cancel _ (Nat.two_pow_pos _)]
  have finite : (ofInt number).isFinite = true := by
    rw [isFinite, ofInt_eq_ofFields isZero small,
      exponent_ofFields exponentBound fractionBound]
    simp
    omega
  have sign : (ofInt number).negative = decide (number < 0) := by
    rw [ofInt_eq_ofFields isZero small, negative_ofFields exponentBound fractionBound]
  rw [truncated, if_pos finite, isMagnitude, sign]
  apply congrArg some
  by_cases negative : number < 0
  · rw [decide_eq_true negative, if_pos rfl]
    omega
  · rw [decide_eq_false negative, if_neg Bool.false_ne_true]
    omega

/-- Integers of magnitude up to `2 ^ 53` are doubles exactly. -/
theorem truncated_ofInt {number : Int} (small : number.natAbs ≤ 2 ^ 53) :
    (ofInt number).truncated = some number := by
  obtain small | rfl | rfl := log2_le_or_eq small
  · exact truncated_ofInt_of_log2_le small
  · decide +kernel
  · decide +kernel

theorem value_ofInt_of_log2_le {number : Int} (small : number.natAbs.log2 ≤ 52) :
    (ofInt number).value = number := by
  by_cases isZero : number = 0
  · subst isZero
    simp [value, significand, show (ofInt 0).exponent = 0 by decide +kernel,
      show (ofInt 0).fraction = 0 by decide +kernel]
  have positive : number.natAbs ≠ 0 := by omega
  obtain ⟨low, high⟩ := two_pow_le_normalized positive small
  have exponentBound : 1023 + number.natAbs.log2 < 2 ^ 11 := by omega
  have fractionBound : number.natAbs * 2 ^ (52 - number.natAbs.log2) - 2 ^ 52 < 2 ^ 52 := by
    omega
  have normal : 1023 + number.natAbs.log2 ≠ 0 := by omega
  have power : max ((1023 + number.natAbs.log2 : Nat) : ℤ) 1 - 1075 +
      (52 - number.natAbs.log2 : Nat) = 0 := by
    omega
  rw [value, ofInt_eq_ofFields isZero small, negative_ofFields exponentBound fractionBound,
    significand_ofFields exponentBound fractionBound normal,
    exponent_ofFields exponentBound fractionBound, Nat.add_sub_cancel' low, mul_assoc,
    mul_two_pow_mul_zpow, power, zpow_zero, mul_one]
  rcases Int.natAbs_eq number with isPositive | isNegative
  · have sign : ¬number < 0 := by omega
    rw [decide_eq_false sign, if_neg Bool.false_ne_true, one_mul, ← Int.cast_natCast,
      ← isPositive]
  · have sign : number < 0 := by omega
    rw [decide_eq_true sign, if_pos rfl, ← Int.cast_natCast, neg_one_mul, ← Int.cast_neg,
      ← isNegative]

/-- The double of an integer of magnitude up to `2 ^ 53` has its value. -/
theorem value_ofInt {number : Int} (small : number.natAbs ≤ 2 ^ 53) :
    (ofInt number).value = number := by
  obtain small | rfl | rfl := log2_le_or_eq small
  · exact value_ofInt_of_log2_le small
  · decide +kernel
  · decide +kernel

end Binary64

/-! ## Widening -/

namespace Binary32

def isFinite (number : Binary32) : Bool :=
  number.exponent != 255

def isNaN (number : Binary32) : Bool :=
  number.exponent == 255 && number.fraction != 0

def significand (number : Binary32) : Nat :=
  if number.exponent = 0 then number.fraction else 2 ^ 23 + number.fraction

/-- The value of a finite single. -/
def value (number : Binary32) : ℚ :=
  (if number.negative then -1 else 1) * number.significand *
    2 ^ ((max number.exponent 1 : ℤ) - 150)

variable (number : Binary32)

theorem fraction_lt : number.fraction < 2 ^ 23 :=
  Nat.mod_lt _ (by decide)

theorem exponent_lt : number.exponent < 2 ^ 8 :=
  Nat.mod_lt _ (by decide)

/-- The fields of the double of the same value. -/
structure Widened (exponent fraction : Nat) : Prop where
  widen : number.widen = .ofFields number.negative exponent fraction
  exponent_lt : exponent < 2 ^ 11
  fraction_lt : fraction < 2 ^ 52

variable {number} {field rest : Nat}

theorem Widened.negative (widened : number.Widened field rest) :
    number.widen.negative = number.negative := by
  rw [widened.widen, Binary64.negative_ofFields widened.exponent_lt widened.fraction_lt]

theorem Widened.exponent (widened : number.Widened field rest) :
    number.widen.exponent = field := by
  rw [widened.widen, Binary64.exponent_ofFields widened.exponent_lt widened.fraction_lt]

theorem Widened.fraction (widened : number.Widened field rest) :
    number.widen.fraction = rest := by
  rw [widened.widen, Binary64.fraction_ofFields widened.exponent_lt widened.fraction_lt]

theorem widened_of_special (special : number.exponent = 255) :
    number.Widened 2047 (number.fraction * 2 ^ 29) where
  widen := by simp [Binary32.widen, widenedBits, special, Binary64.ofFields]
  exponent_lt := by decide
  fraction_lt := by
    have := number.fraction_lt
    omega

theorem widened_of_zero (subnormal : number.exponent = 0) (isZero : number.fraction = 0) :
    number.Widened 0 0 where
  widen := by simp [Binary32.widen, widenedBits, subnormal, isZero, Binary64.ofFields]
  exponent_lt := by decide
  fraction_lt := by decide

theorem log2_fraction_lt (nonzero : number.fraction ≠ 0) : number.fraction.log2 < 23 :=
  (Nat.log2_lt nonzero).mpr number.fraction_lt

theorem widened_of_subnormal (subnormal : number.exponent = 0) (nonzero : number.fraction ≠ 0) :
    number.Widened (874 + number.fraction.log2)
      (number.fraction * 2 ^ (52 - number.fraction.log2) - 2 ^ 52) where
  widen := by simp [Binary32.widen, widenedBits, subnormal, nonzero, Binary64.ofFields]
  exponent_lt := by
    have := log2_fraction_lt nonzero
    omega
  fraction_lt := by
    have := log2_fraction_lt nonzero
    have := Binary64.two_pow_le_normalized nonzero (by omega)
    omega

theorem widened_of_normal (normal : number.exponent ≠ 0) (finite : number.exponent ≠ 255) :
    number.Widened (number.exponent + 896) (number.fraction * 2 ^ 29) where
  widen := by simp [Binary32.widen, widenedBits, normal, finite, Binary64.ofFields]
  exponent_lt := by
    have := number.exponent_lt
    omega
  fraction_lt := by
    have := number.fraction_lt
    omega

/-- Every single is a double with fields of its own. -/
theorem exists_widened (number : Binary32) : ∃ exponent fraction,
    number.Widened exponent fraction := by
  by_cases special : number.exponent = 255
  · exact ⟨_, _, widened_of_special special⟩
  by_cases normal : number.exponent = 0
  · by_cases isZero : number.fraction = 0
    · exact ⟨_, _, widened_of_zero normal isZero⟩
    · exact ⟨_, _, widened_of_subnormal normal isZero⟩
  · exact ⟨_, _, widened_of_normal normal special⟩

/-- The sign is kept, also that of zero. -/
theorem negative_widen (number : Binary32) : number.widen.negative = number.negative := by
  obtain ⟨_, _, widened⟩ := number.exists_widened
  exact widened.negative

theorem isNaN_of_isFinite {number : Binary32} (finite : number.isFinite = true) :
    number.isNaN = false := by
  have notSpecial : number.exponent ≠ 255 := by simpa [isFinite] using finite
  simp [isNaN, notSpecial]

theorem isNaN_widen (number : Binary32) : number.widen.isNaN = number.isNaN := by
  unfold Binary64.isNaN isNaN
  by_cases special : number.exponent = 255
  · have widened := widened_of_special special
    rw [widened.exponent, widened.fraction, special, Bool.eq_iff_iff]
    simp
  · have notSpecial : number.widen.exponent ≠ 2047 := by
      have bound := number.exponent_lt
      by_cases normal : number.exponent = 0
      · by_cases isZero : number.fraction = 0
        · rw [(widened_of_zero normal isZero).exponent]
          omega
        · rw [(widened_of_subnormal normal isZero).exponent]
          have := log2_fraction_lt isZero
          omega
      · rw [(widened_of_normal normal special).exponent]
        omega
    rw [Bool.eq_iff_iff]
    simp [special, notSpecial]

/-- Widening a finite single keeps its value. -/
theorem value_widen (finite : number.isFinite = true) : number.widen.value = number.value := by
  have notSpecial : number.exponent ≠ 255 := by simpa [isFinite] using finite
  unfold Binary64.value value
  rw [negative_widen, mul_assoc, mul_assoc]
  congr 1
  by_cases normal : number.exponent = 0
  · by_cases isZero : number.fraction = 0
    · have widened := widened_of_zero normal isZero
      simp [Binary64.significand, significand, widened.exponent, widened.fraction, normal, isZero]
    · have widened := widened_of_subnormal normal isZero
      have small := log2_fraction_lt isZero
      obtain ⟨low, _⟩ := Binary64.two_pow_le_normalized isZero (by omega)
      have isSignificand : number.widen.significand =
          number.fraction * 2 ^ (52 - number.fraction.log2) := by
        rw [Binary64.significand, widened.exponent, widened.fraction, if_neg (by omega)]
        omega
      rw [isSignificand, widened.exponent, Binary64.mul_two_pow_mul_zpow, significand,
        if_pos normal]
      congr 2
      omega
  · have widened := widened_of_normal normal notSpecial
    have isSignificand : number.widen.significand = number.significand * 2 ^ 29 := by
      rw [Binary64.significand, widened.exponent, widened.fraction, if_neg (by omega),
        significand, if_neg normal]
      omega
    have samePower : (max ((number.exponent + 896 : Nat) : ℤ) 1) - 1075 + (29 : Nat) =
        max (number.exponent : ℤ) 1 - 150 := by
      omega
    rw [isSignificand, widened.exponent, Binary64.mul_two_pow_mul_zpow, samePower]

end Binary32

end BinaryNumbers
