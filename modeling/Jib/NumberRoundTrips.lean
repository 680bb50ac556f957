import Jib.NumberReadings

/-!
# Numbers and booleans that are passed and read back

A number that is made from Swift takes one of two forms in QuickJS, an `int32_t`
where the bits allow it and a double elsewhere; JavaScriptCore makes doubles and
keeps of a `NaN` only that it is one.
-/

namespace Jib

open BinaryNumbers CommandProgram Program

/-- What the three readers make of one value. -/
structure Readings where
  int : Except JSC.Trap (Option Int)
  double : Option Binary64
  bool : Option Bool

/-- The same number, with the same sign of zero; one `NaN` is as good as
another. -/
def SameNumber (number other : Binary64) : Prop :=
  number = other ∨ number.isNaN = true ∧ other.isNaN = true

/-- What is read back of a value is what was passed, and numbers and booleans
are not mixed up. -/
structure NumbersSurvive (ofInt : Int → Readings) (ofDouble : Binary64 → Readings)
    (ofFloat : Binary32 → Readings) (ofBool : Bool → Readings) : Prop where
  int_int : ∀ number : Int, number.natAbs ≤ 2 ^ 53 → (ofInt number).int = .ok (some number)
  int_double : ∀ number : Int, number.natAbs ≤ 2 ^ 53 →
    ∃ double, (ofInt number).double = some double ∧ double.value = number
  double : ∀ number, ∃ double, (ofDouble number).double = some double ∧
    SameNumber number double
  float : ∀ number, ∃ double, (ofFloat number).double = some double ∧
    SameNumber number.widen double ∧ (number.isFinite = true → double.value = number.value)
  bool : ∀ boolean, (ofBool boolean).bool = some boolean
  numbers_not_bool : (∀ number, (ofInt number).bool = none) ∧
    (∀ number, (ofDouble number).bool = none) ∧ ∀ number, (ofFloat number).bool = none
  bools_not_number : ∀ boolean, (ofBool boolean).int = .ok none ∧ (ofBool boolean).double = none

/-! ## QuickJS -/

namespace QuickJS

variable {State : Type} {handle : Handler interface State} {value : JSValue}
  {number : Binary64}

/-- What the readers make of an argument. -/
def readings (handle : Handler interface State) (state : State) (argument : JibUnknown) :
    Readings where
  int := .ok ((argument.createJibValue >>= jsValueToInt).run handle state).1
  double := ((argument.createJibValue >>= jsValueToDouble).run handle state).1
  bool := ((argument.createJibValue >>= jsValueToBool).run handle state).1

theorem run_jsValueToDouble (reads : ReadsNumbers handle) (denotes : value.Denotes number)
    (state : State) : ((jsValueToDouble value).run handle state).1 = some number := by
  obtain ⟨isUndefined, isNumber, _⟩ := isNumber_of_denotes denotes
  simp [jsValueToDouble, isUndefined, isNumber, reads.toFloat64, toFloat64_of_denotes denotes]

theorem run_jsValueToBool_number (denotes : value.Denotes number) (state : State) :
    ((jsValueToBool value).run handle state).1 = none := by
  obtain ⟨isUndefined, _, isBool⟩ := isNumber_of_denotes denotes
  simp [jsValueToBool, isUndefined, isBool]

/-- Both forms of an integer are tagged as its double. -/
theorem denotes_jsNewInt64 (integer : Int) : (jsNewInt64 integer).Denotes (.ofInt integer) := by
  unfold jsNewInt64
  split
  · rename_i inside
    exact ⟨inside, rfl⟩
  · rfl

/-- Both forms of a double are tagged as this double; the bits decide. -/
theorem denotes_jsNewFloat64 (number : Binary64) : (jsNewFloat64 number).Denotes number := by
  unfold jsNewFloat64
  split
  · split
    · rename_i same
      exact ⟨⟨same.1, same.2.1⟩, same.2.2.symm⟩
    · rfl
  · rfl

variable (reads : ReadsNumbers handle) (state : State)
include reads

theorem readings_of_denotes {argument : JibUnknown}
    (creates : argument.createJibValue = .done value) (denotes : value.Denotes number) :
    (readings handle state argument).int = .ok (some value.toInt64) ∧
      (readings handle state argument).double = some number ∧
      (readings handle state argument).bool = none := by
  simp only [readings, creates, done_bind]
  exact ⟨by rw [run_jsValueToInt reads denotes], run_jsValueToDouble reads denotes state,
    run_jsValueToBool_number denotes state⟩

theorem readings_bool (boolean : Bool) :
    (readings handle state (.bool boolean)).int = .ok none ∧
      (readings handle state (.bool boolean)).double = none ∧
      (readings handle state (.bool boolean)).bool = some boolean := by
  simp [readings, JibUnknown.createJibValue, jsValueToInt, jsValueToDouble, jsValueToBool,
    JSValue.isUndefined, JSValue.isNumber, JSValue.isBool, reads.toBool]

theorem numbersSurvive : NumbersSurvive (fun number => readings handle state (.int number))
    (fun number => readings handle state (.double number))
    (fun number => readings handle state (.float number))
    (fun boolean => readings handle state (.bool boolean)) where
  int_int := by
    intro number small
    rw [(readings_of_denotes reads state rfl (denotes_jsNewInt64 number)).1]
    have whole : intOf (.ofInt number) = some number :=
      intOf_eq_some_iff.mpr ⟨Binary64.truncated_ofInt small, by omega, by omega⟩
    rw [toInt64_of_intOf (denotes_jsNewInt64 number) whole]
  int_double := fun number small =>
    ⟨_, (readings_of_denotes reads state rfl (denotes_jsNewInt64 number)).2.1,
      Binary64.value_ofInt small⟩
  double := fun number =>
    ⟨_, (readings_of_denotes reads state rfl (denotes_jsNewFloat64 number)).2.1, .inl rfl⟩
  float := fun number =>
    ⟨_, (readings_of_denotes reads state rfl (denotes_jsNewFloat64 number.widen)).2.1, .inl rfl,
      Binary32.value_widen⟩
  bool := fun boolean => (readings_bool reads state boolean).2.2
  numbers_not_bool :=
    ⟨fun number => (readings_of_denotes reads state rfl (denotes_jsNewInt64 number)).2.2,
      fun number => (readings_of_denotes reads state rfl (denotes_jsNewFloat64 number)).2.2,
      fun number => (readings_of_denotes reads state rfl (denotes_jsNewFloat64 number.widen)).2.2⟩
  bools_not_number := fun boolean =>
    ⟨(readings_bool reads state boolean).1, (readings_bool reads state boolean).2.1⟩

end QuickJS

/-! ## JavaScriptCore -/

namespace JSC

variable {State : Type} {handle : Handler interface State} {context : JSGlobalContextRef}
  {number : Binary64} {state : State}

/-- The engine makes numbers and booleans.  A `NaN` may come back with other
bits. -/
structure MakesNumbers (handle : Handler interface State) (context : JSGlobalContextRef) :
    Prop where
  makeNumber : ∀ number state, ∃ kept, SameNumber number kept ∧
    HoldsNumber handle context (handle (.jsValueMakeNumber context number) state).1 kept
      (handle (.jsValueMakeNumber context number) state).2
  makeBoolean : ∀ boolean state,
    HoldsBoolean handle context (handle (.jsValueMakeBoolean context boolean) state).1 boolean
      (handle (.jsValueMakeBoolean context boolean) state).2

/-- The fields of a `Jib` for the two booleans. -/
structure HoldsFields (handle : Handler interface State) (jib : JibFields) (state : State) :
    Prop where
  trueValue : HoldsBoolean handle jib.context jib.trueValue true state
  falseValue : HoldsBoolean handle jib.context jib.falseValue false state

/-- What the readers make of a value that is created first. -/
def readings (handle : Handler interface State) (context : JSGlobalContextRef) (state : State)
    (create : Operation (Option JSValueRef)) : Readings where
  int := ((create >>= jsValueToInt context).run handle state).1
  double := ((create >>= jsValueToDouble context).run handle state).1
  bool := ((create >>= jsValueToBool context).run handle state).1

/-- Two doubles that are the same number have the same bits, but for `NaN`. -/
theorem eq_of_sameNumber {kept : Binary64} (same : SameNumber number kept)
    (proper : number.isNaN = false) : kept = number := by
  rcases same with equal | ⟨isNaN, _⟩
  · exact equal.symm
  · rw [proper] at isNaN
    cases isNaN

section

variable (makes : MakesNumbers handle context) (state : State)
include makes

/-- The three readings of a number that was just made. -/
theorem readings_makeNumber (number : Binary64) :
    ∃ kept, SameNumber number kept ∧
      readings handle context state (some <$> jsValueMakeNumber context number) =
        ⟨(intOfDouble kept).map some, some kept, none⟩ := by
  obtain ⟨kept, same, holds⟩ := makes.makeNumber number state
  refine ⟨kept, same, ?_⟩
  simp [readings, jsValueToInt, jsValueToDouble, jsValueToBool, holds.isUndefined,
    holds.isNumber, holds.isBoolean, holds.toNumber, map_eq_pure_bind]

end

theorem readings_boolean {value : JSValueRef} {boolean : Bool}
    (holds : HoldsBoolean handle context value boolean state) :
    readings handle context state (.done (some value)) = ⟨.ok none, none, some boolean⟩ := by
  simp [readings, jsValueToInt, jsValueToDouble, jsValueToBool, holds.isUndefined,
    holds.isNumber, holds.isBoolean, holds.toBoolean]

/-- Numbers survive once they are made, and booleans survive if the creation of
each can be read as it. -/
theorem numbersSurvive (makes : MakesNumbers handle context) (state : State)
    {ofBool : Bool → Readings}
    (bools : ∀ boolean, ofBool boolean = ⟨.ok none, none, some boolean⟩) :
    NumbersSurvive
      (fun number => readings handle context state
        ((JibUnknown.int number).createContextValue context))
      (fun number => readings handle context state
        ((JibUnknown.double number).createContextValue context))
      (fun number => readings handle context state
        ((JibUnknown.float number).createContextValue context))
      ofBool where
  int_int := by
    intro number small
    obtain ⟨kept, same, reads⟩ := readings_makeNumber makes state (.ofInt number)
    have truncated := Binary64.truncated_ofInt small
    obtain rfl := eq_of_sameNumber same (Binary64.isNaN_of_truncated truncated)
    have whole : intOf (.ofInt number) = some number :=
      intOf_eq_some_iff.mpr ⟨truncated, by omega, by omega⟩
    dsimp only [JibUnknown.createContextValue]
    rw [reads, intOfDouble_eq, whole]
    rfl
  int_double := by
    intro number small
    obtain ⟨kept, same, reads⟩ := readings_makeNumber makes state (.ofInt number)
    have truncated := Binary64.truncated_ofInt small
    obtain rfl := eq_of_sameNumber same (Binary64.isNaN_of_truncated truncated)
    dsimp only [JibUnknown.createContextValue]
    rw [reads]
    exact ⟨_, rfl, Binary64.value_ofInt small⟩
  double := by
    intro number
    obtain ⟨kept, same, reads⟩ := readings_makeNumber makes state number
    dsimp only [JibUnknown.createContextValue]
    rw [reads]
    exact ⟨kept, rfl, same⟩
  float := by
    intro number
    obtain ⟨kept, same, reads⟩ := readings_makeNumber makes state number.widen
    dsimp only [JibUnknown.createContextValue]
    rw [reads]
    refine ⟨kept, rfl, same, ?_⟩
    intro finite
    have proper : number.widen.isNaN = false := by
      rw [Binary32.isNaN_widen]
      exact Binary32.isNaN_of_isFinite finite
    rw [eq_of_sameNumber same proper]
    exact Binary32.value_widen finite
  bool := by
    intro boolean
    rw [bools]
  numbers_not_bool := by
    refine ⟨fun number => ?_, fun number => ?_, fun number => ?_⟩
    · obtain ⟨kept, _, reads⟩ := readings_makeNumber makes state (.ofInt number)
      exact congrArg Readings.bool reads
    · obtain ⟨kept, _, reads⟩ := readings_makeNumber makes state number
      exact congrArg Readings.bool reads
    · obtain ⟨kept, _, reads⟩ := readings_makeNumber makes state number.widen
      exact congrArg Readings.bool reads
  bools_not_number := by
    intro boolean
    rw [bools]
    exact ⟨rfl, rfl⟩

end JSC

/-! ## Both backends -/

/-- What QuickJS creates of numbers and booleans is read back. -/
abbrev QuickJS.NumbersSurvive {State : Type} (handle : Handler QuickJS.interface State)
    (state : State) : Prop :=
  Jib.NumbersSurvive (fun number => QuickJS.readings handle state (.int number))
    (fun number => QuickJS.readings handle state (.double number))
    (fun number => QuickJS.readings handle state (.float number))
    (fun boolean => QuickJS.readings handle state (.bool boolean))

/-- What a conversion of JavaScriptCore creates of numbers and booleans is read
back. -/
abbrev JSC.NumbersSurvive {State : Type} (handle : Handler JSC.interface State)
    (context : JSC.JSGlobalContextRef) (state : State)
    (create : JSC.JibUnknown → JSC.Operation (Option JSC.JSValueRef)) : Prop :=
  Jib.NumbersSurvive
    (fun number => JSC.readings handle context state (create (.int number)))
    (fun number => JSC.readings handle context state (create (.double number)))
    (fun number => JSC.readings handle context state (create (.float number)))
    (fun boolean => JSC.readings handle context state (create (.bool boolean)))

/-- Numbers and booleans survive the trip into JS and back.  JavaScriptCore has
two conversions, which differ in how they come by a boolean. -/
theorem numbers_survive {State JSCState : Type} {handle : Handler QuickJS.interface State}
    (reads : QuickJS.ReadsNumbers handle) (state : State) {jib : JSC.JibFields}
    {jscHandle : Handler JSC.interface JSCState} {jscState : JSCState}
    (makes : JSC.MakesNumbers jscHandle jib.context)
    (fields : JSC.HoldsFields jscHandle jib jscState) :
    QuickJS.NumbersSurvive handle state ∧
      JSC.NumbersSurvive jscHandle jib.context jscState
        (JSC.JibUnknown.createJibValue jib) ∧
      JSC.NumbersSurvive jscHandle jib.context jscState
        (JSC.JibUnknown.createContextValue jib.context) := by
  refine ⟨QuickJS.numbersSurvive reads state, ?_, ?_⟩
  · apply JSC.numbersSurvive makes jscState
    intro boolean
    cases boolean
    · exact JSC.readings_boolean fields.falseValue
    · exact JSC.readings_boolean fields.trueValue
  · apply JSC.numbersSurvive makes jscState
    intro boolean
    have holds := JSC.readings_boolean (makes.makeBoolean boolean jscState)
    simpa [JSC.readings, JSC.JibUnknown.createContextValue, map_eq_pure_bind] using holds

/-- A `Jib` whose booleans are those of `primitiveHandle`. -/
def JSC.primitiveJib : JSC.JibFields := ⟨0, 0, 0, 0, 3, 1⟩

theorem JSC.makesNumbers_primitiveHandle (context : JSC.JSGlobalContextRef) :
    JSC.MakesNumbers JSC.primitiveHandle context where
  makeNumber := fun number _ => ⟨number, .inl rfl, JSC.holdsNumber_primitiveHandle context number⟩
  makeBoolean := fun boolean _ => JSC.holdsBoolean_primitiveHandle context boolean

theorem numbers_survive_primitive :
    QuickJS.NumbersSurvive QuickJS.tagHandle () ∧
      JSC.NumbersSurvive JSC.primitiveHandle JSC.primitiveJib.context ()
        (JSC.JibUnknown.createJibValue JSC.primitiveJib) ∧
      JSC.NumbersSurvive JSC.primitiveHandle JSC.primitiveJib.context ()
        (JSC.JibUnknown.createContextValue JSC.primitiveJib.context) :=
  numbers_survive QuickJS.readsNumbers_tagHandle () (JSC.makesNumbers_primitiveHandle _)
    ⟨JSC.holdsBoolean_primitiveHandle _ true, JSC.holdsBoolean_primitiveHandle _ false⟩

end Jib
