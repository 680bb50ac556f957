import Jib.BinaryConversions
import Jib.JSCOperations
import Jib.QuickJSOperations

/-!
# Reading numbers and booleans

QuickJS tags a number as an `int32_t` or a double and converts both on the bits;
JavaScriptCore hands out doubles.  What a reader gives for a number or boolean
depends on these few engine functions only.
-/

namespace Jib

open BinaryNumbers CommandProgram Program

/-! ## Numbers of QuickJS -/

namespace QuickJS

/-- `JS_ToInt64Free` of a double. -/
def int64OfDouble (number : Binary64) : Int :=
  if number.exponent ≤ 1023 + 62 then
    -- the conversion of C, which drops the fraction
    number.truncated.getD 0
  else if number.exponent ≤ 1023 + 62 + 53 then
    let unit := (1 : UInt64) <<< (52 : UInt64)
    let mantissa := (number.bits &&& (unit - 1)) ||| unit
    let shifted := mantissa <<< UInt64.ofNat (number.exponent - 1023 - 52)
    (if number.bits >>> (63 : UInt64) ≠ 0 then -shifted else shifted).toInt64.toInt
  else 0

/-- `JS_ToInt64` of a number. -/
def JSValue.toInt64 : JSValue → Int
  | .int value => value
  | .float64 value => int64OfDouble value
  | _ => 0

/-- `JS_ToFloat64` of a number. -/
def JSValue.toFloat64 : JSValue → Binary64
  | .int value => .ofInt value
  | .float64 value => value
  | _ => ⟨0⟩

/-- The value is tagged as this number. -/
def JSValue.Denotes : JSValue → Binary64 → Prop
  | .int value, number => (-2 ^ 31 ≤ value ∧ value < 2 ^ 31) ∧ number = .ofInt value
  | .float64 value, number => number = value
  | _, _ => False

/-- The engine functions that read numbers and booleans. -/
structure ReadsNumbers {State : Type} (handle : Handler interface State) : Prop where
  toInt64 : ∀ value state, (handle (.jsToInt64 value) state).1 = value.toInt64
  toFloat64 : ∀ value state, (handle (.jsToFloat64 value) state).1 = value.toFloat64
  toBool : ∀ value state, (handle (.jsToBool (.bool value)) state).1 = value

end QuickJS

/-! ## Numbers of JavaScriptCore -/

namespace JSC

variable {State : Type} (handle : Handler interface State) (context : JSGlobalContextRef)
  (value : JSValueRef)

/-- In a state, what the engine says of a value that is this number. -/
structure HoldsNumber (number : Binary64) (state : State) : Prop where
  isUndefined : handle (.jsValueIsUndefined context value) state = (false, state)
  isNumber : handle (.jsValueIsNumber context value) state = (true, state)
  isBoolean : handle (.jsValueIsBoolean context value) state = (false, state)
  toNumber : (handle (.jsValueToNumber context value) state).1 = number

/-- In a state, what the engine says of a value that is this boolean. -/
structure HoldsBoolean (boolean : Bool) (state : State) : Prop where
  isUndefined : handle (.jsValueIsUndefined context value) state = (false, state)
  isNumber : handle (.jsValueIsNumber context value) state = (false, state)
  isBoolean : handle (.jsValueIsBoolean context value) state = (true, state)
  toBoolean : (handle (.jsValueToBoolean context value) state).1 = boolean

end JSC

/-! ## Engines with numbers and booleans only -/

/-- The functions of QuickJS that look at a tag. -/
def QuickJS.tagHandle : Handler QuickJS.interface Unit
  | .jsToInt64 value, state => (value.toInt64, state)
  | .jsToFloat64 value, state => (value.toFloat64, state)
  | .jsToBool value, state => (value == .bool true, state)
  | command, state => (QuickJS.constantAnswer .undefined command, state)

theorem QuickJS.readsNumbers_tagHandle : QuickJS.ReadsNumbers QuickJS.tagHandle where
  toInt64 := fun _ _ => rfl
  toFloat64 := fun _ _ => rfl
  toBool := fun value _ => by cases value <;> rfl

namespace JSC

/-- References to primitive values: 0 is `undefined`, 1 and 3 are the booleans,
the other even ones are numbers by their bits. -/
def ofNumber (number : Binary64) : JSValueRef :=
  2 * number.bits.toNat + 2

/-- An engine whose references carry their values. -/
def primitiveHandle : Handler interface Unit
  | .jsValueIsNumber _ value, state => (value % 2 == 0 && value != 0, state)
  | .jsValueIsBoolean _ value, state => (value % 2 == 1, state)
  | .jsValueToNumber _ value, state => (⟨UInt64.ofNat ((value - 2) / 2)⟩, state)
  | .jsValueToBoolean _ value, state => (value == 3, state)
  | .jsValueMakeNumber _ number, state => (ofNumber number, state)
  | .jsValueMakeBoolean _ value, state => (if value then 3 else 1, state)
  | command, state => (emptyAnswer command, state)

theorem holdsNumber_primitiveHandle (context : JSGlobalContextRef) (number : Binary64) :
    HoldsNumber primitiveHandle context (ofNumber number) number () where
  isUndefined := by simp [primitiveHandle, emptyAnswer, ofNumber]
  isNumber := by simp [primitiveHandle, ofNumber]
  isBoolean := by simp [primitiveHandle, ofNumber]
  toNumber := by simp [primitiveHandle, ofNumber]

theorem holdsBoolean_primitiveHandle (context : JSGlobalContextRef) (boolean : Bool) :
    HoldsBoolean primitiveHandle context (if boolean then 3 else 1) boolean () := by
  cases boolean
  · exact ⟨rfl, rfl, rfl, rfl⟩
  · exact ⟨rfl, rfl, rfl, rfl⟩

end JSC

/-! ## Whole parts -/

/-- The whole part of a number, if it is an `Int`. -/
def intOf (number : Binary64) : Option Int :=
  number.truncated.filter fun integer => -2 ^ 63 ≤ integer ∧ integer < 2 ^ 63

theorem intOf_eq_some_iff {number : Binary64} {integer : Int} :
    intOf number = some integer ↔
      number.truncated = some integer ∧ -2 ^ 63 ≤ integer ∧ integer < 2 ^ 63 := by
  simp [intOf, Option.filter_eq_some_iff]

/-- The reading does not trap, what it gives is the whole part, and where there
is no whole part it gives `nil`. -/
def ReadsWhole (number : Binary64) : Except JSC.Trap (Option Int) → Prop
  | .error _ => False
  | .ok result =>
      (∀ integer ∈ result, intOf number = some integer) ∧ (intOf number = none → result = none)

theorem magnitude_of_large {number : Binary64} (large : 1086 ≤ number.exponent) :
    2 ^ 63 ≤ number.magnitude ∧
      (number.magnitude = 2 ^ 63 → number.exponent = 1086 ∧ number.fraction = 0) := by
  have significand : number.significand = 2 ^ 52 + number.fraction := by
    rw [Binary64.significand, if_neg (by omega)]
  have isMagnitude : number.magnitude =
      (2 ^ 52 + number.fraction) * 2 ^ (number.exponent - 1075) := by
    rw [Binary64.magnitude, if_pos (by omega), significand]
  have shift : number.exponent - 1075 = 11 + (number.exponent - 1086) := by omega
  have expanded : number.magnitude =
      (2 ^ 52 + number.fraction) * 2 ^ 11 * 2 ^ (number.exponent - 1086) := by
    rw [isMagnitude, shift, Nat.pow_add, Nat.mul_assoc]
  have atLeast : 1 ≤ 2 ^ (number.exponent - 1086) := Nat.one_le_two_pow
  constructor
  · rw [expanded]
    calc 2 ^ 63 ≤ (2 ^ 52 + number.fraction) * 2 ^ 11 := by omega
      _ ≤ _ := Nat.le_mul_of_pos_right _ (Nat.two_pow_pos _)
  · intro isLeast
    rw [expanded] at isLeast
    have isFirst : number.exponent = 1086 := by
      by_contra notFirst
      have twice : 2 ≤ 2 ^ (number.exponent - 1086) := by
        calc 2 = 2 ^ 1 := rfl
          _ ≤ _ := Nat.pow_le_pow_right (by omega) (by omega)
      have tooLarge := Nat.mul_le_mul_left ((2 ^ 52 + number.fraction) * 2 ^ 11) twice
      omega
    refine ⟨isFirst, ?_⟩
    rw [isFirst] at isLeast
    omega

/-- The only double from `2 ^ 63` on in magnitude that is an `Int`. -/
theorem eq_least_of_large {number : Binary64} {integer : Int} (large : 1086 ≤ number.exponent)
    (whole : intOf number = some integer) :
    number = .ofFields true 1086 0 ∧ integer = -2 ^ 63 := by
  obtain ⟨truncated, low, high⟩ := intOf_eq_some_iff.mp whole
  obtain ⟨atLeast, least⟩ := magnitude_of_large large
  have isInteger : (if number.negative then -(number.magnitude : Int) else number.magnitude) =
      integer := by
    unfold Binary64.truncated at truncated
    split at truncated
    · simpa using truncated
    · cases truncated
  cases sign : number.negative with
  | false =>
      rw [sign] at isInteger
      simp at isInteger
      omega
  | true =>
      rw [sign] at isInteger
      simp at isInteger
      have isLeast : number.magnitude = 2 ^ 63 := by omega
      obtain ⟨isExponent, isFraction⟩ := least isLeast
      rw [number.eq_ofFields, sign, isExponent, isFraction]
      exact ⟨rfl, by omega⟩

namespace QuickJS

/-- The bit-level conversion gives the whole part of every double that has one. -/
theorem int64OfDouble_of_intOf {number : Binary64} {integer : Int}
    (whole : intOf number = some integer) : int64OfDouble number = integer := by
  by_cases small : number.exponent ≤ 1023 + 62
  · rw [int64OfDouble, if_pos small, (intOf_eq_some_iff.mp whole).1]
    rfl
  · obtain ⟨rfl, rfl⟩ := eq_least_of_large (by omega) whole
    decide +kernel

theorem toInt64_of_intOf {value : JSValue} {number : Binary64} {integer : Int}
    (denotes : value.Denotes number) (whole : intOf number = some integer) :
    value.toInt64 = integer := by
  cases value with
  | int value =>
      obtain ⟨⟨low, high⟩, rfl⟩ := denotes
      have exactly : (Binary64.ofInt value).truncated = some value :=
        Binary64.truncated_ofInt (by omega)
      rw [(intOf_eq_some_iff.mp whole).1] at exactly
      simpa [JSValue.toInt64] using exactly.symm
  | float64 value =>
      obtain rfl : number = value := denotes
      exact int64OfDouble_of_intOf whole
  | _ => exact denotes.elim

theorem isNumber_of_denotes {value : JSValue} {number : Binary64}
    (denotes : value.Denotes number) :
    value.isUndefined = false ∧ value.isNumber = true ∧ value.isBool = false := by
  cases value with
  | int value => exact ⟨rfl, rfl, rfl⟩
  | float64 value => exact ⟨rfl, rfl, rfl⟩
  | _ => exact denotes.elim

theorem toFloat64_of_denotes {value : JSValue} {number : Binary64}
    (denotes : value.Denotes number) : value.toFloat64 = number := by
  cases value with
  | int value => exact denotes.2.symm
  | float64 value => exact denotes.symm
  | _ => exact denotes.elim

variable {State : Type} {handle : Handler interface State} {value : JSValue}
  {number : Binary64}

/-- Reading a number as `Int` never gives `nil`. -/
theorem run_jsValueToInt (reads : ReadsNumbers handle) (denotes : value.Denotes number)
    (state : State) : ((jsValueToInt value).run handle state).1 = some value.toInt64 := by
  obtain ⟨isUndefined, isNumber, _⟩ := isNumber_of_denotes denotes
  simp [jsValueToInt, isUndefined, isNumber, reads.toInt64]

end QuickJS

namespace JSC

variable {State : Type} {handle : Handler interface State} {context : JSGlobalContextRef}
  {value : JSValueRef} {number : Binary64} {state : State}

theorem run_jsValueToInt (holds : HoldsNumber handle context value number state) :
    ((jsValueToInt context (some value)).run handle state).1 =
      (intOfDouble number).map some := by
  simp [jsValueToInt, holds.isUndefined, holds.isNumber, holds.toNumber]

/-- Swift's conversion traps where there is no whole part. -/
theorem intOfDouble_eq (number : Binary64) :
    intOfDouble number = match intOf number with
      | some integer => .ok integer
      | none => .error .outOfRange := by
  unfold intOfDouble intOf
  cases number.truncated with
  | none => rfl
  | some integer =>
      rw [Option.filter_some]
      by_cases inside : -2 ^ 63 ≤ integer ∧ integer < 2 ^ 63
      · dsimp only
        rw [if_pos inside, if_pos (decide_eq_true inside)]
      · dsimp only
        rw [if_neg inside, if_neg (by simpa using inside)]

end JSC

/-! ## Reading a number as `Int` -/

/-- In both backends, reading a number as `Int` gives its whole part exactly
when it has one that is an `Int`: QuickJS never gives `nil`, JavaScriptCore
traps. -/
theorem valueToInt_readsWhole_iff {State JSCState : Type} {number : Binary64}
    {value : QuickJS.JSValue} {handle : Handler QuickJS.interface State} (state : State)
    {jscValue : JSC.JSValueRef} {context : JSC.JSGlobalContextRef}
    {jscHandle : Handler JSC.interface JSCState} {jscState : JSCState}
    (reads : QuickJS.ReadsNumbers handle) (denotes : value.Denotes number)
    (holds : JSC.HoldsNumber jscHandle context jscValue number jscState) :
    (ReadsWhole number (.ok ((QuickJS.jsValueToInt value).run handle state).1) ↔
        intOf number ≠ none) ∧
      (ReadsWhole number
          ((JSC.jsValueToInt context (some jscValue)).run jscHandle jscState).1 ↔
        intOf number ≠ none) := by
  rw [QuickJS.run_jsValueToInt reads denotes, JSC.run_jsValueToInt holds, JSC.intOfDouble_eq]
  cases whole : intOf number with
  | none => simp [ReadsWhole, whole, Except.map]
  | some integer =>
      simp [ReadsWhole, whole, Except.map, QuickJS.toInt64_of_intOf denotes whole]

theorem valueToInt_readsWhole_seven :
    (ReadsWhole (.ofInt 7) (.ok ((QuickJS.jsValueToInt (.int 7)).run QuickJS.tagHandle ()).1) ↔
        intOf (.ofInt 7) ≠ none) ∧
      (ReadsWhole (.ofInt 7)
          ((JSC.jsValueToInt 0 (some (JSC.ofNumber (.ofInt 7)))).run JSC.primitiveHandle ()).1 ↔
        intOf (.ofInt 7) ≠ none) :=
  valueToInt_readsWhole_iff () QuickJS.readsNumbers_tagHandle ⟨by decide, rfl⟩
    (JSC.holdsNumber_primitiveHandle 0 _)

/-- `NaN`. -/
def notANumber : Binary64 := ⟨0x7ff8000000000000⟩

/-- QuickJS reads `NaN` as 0, and JavaScriptCore traps. -/
theorem valueToInt_notANumber :
    ¬ReadsWhole notANumber
        (.ok ((QuickJS.jsValueToInt (.float64 notANumber)).run QuickJS.tagHandle ()).1) ∧
      ¬ReadsWhole notANumber
        ((JSC.jsValueToInt 0 (some (JSC.ofNumber notANumber))).run JSC.primitiveHandle ()).1 := by
  have noWhole : intOf notANumber = none := by decide +kernel
  constructor
  · intro reads
    cases reads.2 noWhole
  · rw [JSC.run_jsValueToInt (JSC.holdsNumber_primitiveHandle 0 _), JSC.intOfDouble_eq, noWhole]
    exact id

end Jib
