import Jib.NumberRoundTrips
import Jib.StringRoundTrips

/-!
# Passing Swift values to the two backends

What a Swift value is for a script depends on the conversion of the backend.
JavaScriptCore makes a number of every `UInt` and passes nothing for `nil`; a
string reaches both engines alike if it is read to its end.
-/

namespace Jib

open BinaryNumbers CommandProgram Program UnicodeText

/-! ## JS values -/

/-- A number of JS, which has one `NaN`. -/
def jsNumber (number : Binary64) : Binary64 :=
  if number.isNaN then ⟨0x7FF8000000000000⟩ else number

/-- A JS value by its type.  The elements of an array are given where they are
strings; `F` tells functions apart. -/
inductive Content (F : Type)
  | undefined
  | null
  | boolean (value : Bool)
  | number (value : Binary64)
  | bigInt (value : Nat)
  | string (units : List UInt16)
  | array (elements : List (Option (List UInt16)))
  | function (identity : F)
  deriving DecidableEq

variable {F : Type}

/-- The chars of a string. -/
def Content.units? : Content F → Option (List UInt16)
  | .string units => some units
  | _ => none

/-! ## Swift values -/

/-- The Swift values that both backends can pass.  A function is wrapped by the
`JibFunction` of each. -/
inductive SwiftArgument (F : Type)
  | function (identity : F) (quickJS : QuickJS.JibFunction) (jsc : JSC.JibFunction)
  | hitchArray (hitches : List Hitch)
  | text (source : StringSource)
  | int (value : Int)
  | uint (value : Nat)
  | double (value : Binary64)
  | float (value : Binary32)
  | bool (value : Bool)

namespace SwiftArgument

def quickJS : SwiftArgument F → QuickJS.JibUnknown
  | .function _ wrapper _ => .jibFunction wrapper
  | .hitchArray hitches => .hitchArray (hitches.map fun hitch => hitch.halfhitch.bytes)
  | .text source => source.quickJS
  | .int value => .int value
  | .uint value => .uint value
  | .double value => .double value
  | .float value => .float value
  | .bool value => .bool value

def jsc : SwiftArgument F → JSC.JibUnknown
  | .function _ _ wrapper => .jibFunction wrapper
  | .hitchArray hitches => .hitchArray hitches
  | .text source => source.jsc
  | .int value => .int value
  | .uint value => .uint value
  | .double value => .double value
  | .float value => .float value
  | .bool value => .bool value

end SwiftArgument

def IsUTF8 (bytes : Bytes) : Prop :=
  ∃ text, bytes = utf8 text

/-- A string that both engines read to its end. -/
def ReadsWholly (bytes : Bytes) : Prop :=
  ∃ text, bytes = utf8 text ∧ '\x00' ∉ text ∧ QuickJS.Makeable text

/-- What passes alike: neither `nil` nor a `UInt`, and of strings those with
memory that are read to their ends.  An array is pushed with an `Int32`. -/
def PassesAlike : Option (SwiftArgument F) → Prop
  | some (.hitchArray hitches) =>
      hitches.length < 2 ^ 31 ∧
        ∀ hitch ∈ hitches, hitch.raw.isSome = true ∧ ReadsWholly hitch.halfhitch.bytes
  | some (.text source) => source.HasMemory ∧ ReadsWholly source.bytes
  | some (.uint _) => False
  | some _ => True
  | none => False

/-- QuickJS is given the number of elements as an `Int32`. -/
def Countable : Option (SwiftArgument F) → Prop
  | some (.hitchArray hitches) => hitches.length < 2 ^ 31
  | _ => True

/-- Strings that are UTF-8.  JavaScriptCore does not say what it makes of other
bytes. -/
def IsRegular : Option (SwiftArgument F) → Prop
  | some (.hitchArray hitches) => ∀ hitch ∈ hitches, IsUTF8 hitch.halfhitch.bytes
  | some (.text source) => IsUTF8 source.bytes
  | _ => True

/-! ## What is received -/

/-- The chars of the string that QuickJS makes, if it makes one. -/
def QuickJS.madeUnits (bytes : Bytes) : Option (List UInt16) :=
  (QuickJS.newStringLen bytes).map QuickJS.JSString.units

/-- What QuickJS hands to a script; `none` is an exception. -/
def QuickJS.Receives : Option (SwiftArgument F) → Option (Content F) → Prop
  | none, received => received = some .undefined
  | some (.function identity _ _), received => received = some (.function identity)
  | some (.hitchArray hitches), received =>
      hitches.length < 2 ^ 31 →
        received = some (.array (hitches.map fun hitch => madeUnits hitch.halfhitch.bytes))
  | some (.text source), received => received = (madeUnits source.bytes).map .string
  | some (.int value), received => received = some (.number (jsNumber (.ofInt value)))
  | some (.uint value), received => received = some (.bigInt value)
  | some (.double value), received => received = some (.number (jsNumber value))
  | some (.float value), received => received = some (.number (jsNumber value.widen))
  | some (.bool value), received => received = some (.boolean value)

/-- The chars of a text up to a NUL, as JavaScriptCore reads them. -/
def JSC.readUnits (text : List Char) : List UInt16 :=
  utf16 (text.takeWhile (·.toNat ≠ 0))

/-- The string in an array that JavaScriptCore is given for a `Hitch`. -/
structure JSC.ReceivesElement (hitch : Hitch) (element : Option (List UInt16)) : Prop where
  read : hitch.raw.isSome = true → ∀ text, hitch.halfhitch.bytes = utf8 text →
    element = some (readUnits text)
  absent : hitch.raw = none → element = none

/-- The string that JavaScriptCore is given for a string of Swift. -/
structure JSC.ReceivesText (source : StringSource) (received : Option (Content F)) : Prop where
  read : source.HasMemory → ∀ text, source.bytes = utf8 text →
    received = some (.string (readUnits text))
  undefined : ¬ source.HasMemory → received = some .undefined

/-- An array that is made of these elements; of a `NULL` there need not be one. -/
structure JSC.ReceivesArray (hitches : List Hitch) (elements : List (Option (List UInt16)))
    (received : Option (Content F)) : Prop where
  each : hitches.Forall₂ ReceivesElement elements
  whole : (∀ element ∈ elements, element.isSome = true) → received = some (.array elements)
  only : ∀ others, received = some (.array others) → others = elements

/-- What JavaScriptCore hands to a script; `none` is a `NULL`. -/
def JSC.Receives : Option (SwiftArgument F) → Option (Content F) → Prop
  | none, received => received = none
  | some (.function identity _ _), received => received = some (.function identity)
  | some (.hitchArray hitches), received => ∃ elements, ReceivesArray hitches elements received
  | some (.text source), received => ReceivesText source received
  | some (.int value), received => received = some (.number (jsNumber (.ofInt value)))
  | some (.uint value), received => received = some (.number (jsNumber (.ofInt value)))
  | some (.double value), received => received = some (.number (jsNumber value))
  | some (.float value), received => received = some (.number (jsNumber value.widen))
  | some (.bool value), received => received = some (.boolean value)

/-! ## What is received alike -/

/-- QuickJS makes all of a string exactly if it is not too long. -/
theorem madeUnits_utf8_eq_iff (text : List Char) (units : List UInt16) :
    QuickJS.madeUnits (utf8 text) = some units ↔ QuickJS.Makeable text ∧ units = utf16 text := by
  rw [QuickJS.madeUnits]
  by_cases makeable : QuickJS.Makeable text
  · rw [QuickJS.newStringLen_utf8 makeable, Option.map_some, QuickJS.units_decoded_utf8,
      Option.some_inj, eq_comm]
    exact (and_iff_right makeable).symm
  · rw [QuickJS.newStringLen_utf8_eq_none makeable]
    simp [makeable]

/-- Both engines make the same string exactly of one that is read wholly. -/
theorem madeUnits_eq_readUnits_iff (text : List Char) :
    QuickJS.madeUnits (utf8 text) = some (JSC.readUnits text) ↔
      '\x00' ∉ text ∧ QuickJS.Makeable text := by
  rw [madeUnits_utf8_eq_iff, JSC.readUnits, utf16_takeWhile_eq_iff]
  exact and_comm

section

variable {bytes : Bytes}

/-- Both engines make the same string of one that is read wholly. -/
theorem ReadsWholly.exists_units (wholly : ReadsWholly bytes) :
    ∃ text, bytes = utf8 text ∧ QuickJS.madeUnits bytes = some (JSC.readUnits text) := by
  obtain ⟨text, isText, noNul, makeable⟩ := wholly
  refine ⟨text, isText, ?_⟩
  rw [isText]
  exact (madeUnits_eq_readUnits_iff text).mpr ⟨noNul, makeable⟩

theorem readsWholly_of_madeUnits {text : List Char} (isText : bytes = utf8 text)
    (made : QuickJS.madeUnits bytes = some (JSC.readUnits text)) : ReadsWholly bytes := by
  rw [isText] at made
  exact ⟨text, isText, (madeUnits_eq_readUnits_iff text).mp made⟩

end

section Elements

variable {hitch : Hitch} {element : Option (List UInt16)}

theorem madeUnits_eq_of_passes (received : JSC.ReceivesElement hitch element)
    (hasMemory : hitch.raw.isSome = true) (wholly : ReadsWholly hitch.halfhitch.bytes) :
    QuickJS.madeUnits hitch.halfhitch.bytes = element ∧ element.isSome = true := by
  obtain ⟨text, isText, made⟩ := wholly.exists_units
  rw [made, received.read hasMemory text isText]
  exact ⟨rfl, rfl⟩

theorem passes_of_madeUnits_eq (received : JSC.ReceivesElement hitch element)
    (isUTF8 : IsUTF8 hitch.halfhitch.bytes)
    (same : QuickJS.madeUnits hitch.halfhitch.bytes = element) :
    hitch.raw.isSome = true ∧ ReadsWholly hitch.halfhitch.bytes := by
  cases isMemory : hitch.raw with
  | none =>
      have noBytes : hitch.halfhitch.bytes = utf8 [] := by
        simp [HalfHitch.bytes, Hitch.halfhitch, isMemory]
      have makeable : QuickJS.Makeable [] := ⟨Nat.zero_le _, Or.inl rfl⟩
      have made := (madeUnits_utf8_eq_iff [] []).mpr ⟨makeable, rfl⟩
      rw [received.absent isMemory, noBytes, made] at same
      cases same
  | some memory =>
      obtain ⟨text, isText⟩ := isUTF8
      rw [received.read (by simp [isMemory]) text isText] at same
      exact ⟨rfl, readsWholly_of_madeUnits isText same⟩

theorem map_madeUnits_of_passes {hitches : List Hitch} {elements : List (Option (List UInt16))}
    (each : hitches.Forall₂ JSC.ReceivesElement elements)
    (passes : ∀ hitch ∈ hitches,
      hitch.raw.isSome = true ∧ ReadsWholly hitch.halfhitch.bytes) :
    (hitches.map fun hitch => QuickJS.madeUnits hitch.halfhitch.bytes) = elements ∧
      ∀ element ∈ elements, element.isSome = true := by
  induction each with
  | nil => simp
  | cons received rest ih =>
      rw [List.forall_mem_cons] at passes
      obtain ⟨first, isSome⟩ := madeUnits_eq_of_passes received passes.1.1 passes.1.2
      obtain ⟨others, areSome⟩ := ih passes.2
      rw [List.map_cons, first, others]
      exact ⟨rfl, List.forall_mem_cons.mpr ⟨isSome, areSome⟩⟩

theorem passes_of_map_madeUnits {hitches : List Hitch} {elements : List (Option (List UInt16))}
    (each : hitches.Forall₂ JSC.ReceivesElement elements)
    (areUTF8 : ∀ hitch ∈ hitches, IsUTF8 hitch.halfhitch.bytes)
    (same : (hitches.map fun hitch => QuickJS.madeUnits hitch.halfhitch.bytes) = elements) :
    ∀ hitch ∈ hitches, hitch.raw.isSome = true ∧ ReadsWholly hitch.halfhitch.bytes := by
  induction each with
  | nil => simp
  | cons received rest ih =>
      rw [List.forall_mem_cons] at areUTF8
      rw [List.map_cons, List.cons.injEq] at same
      exact List.forall_mem_cons.mpr
        ⟨passes_of_madeUnits_eq received areUTF8.1 same.1, ih areUTF8.2 same.2⟩

end Elements

section Arguments

variable {argument : Option (SwiftArgument F)} {received jscReceived : Option (Content F)}

/-- What passes alike is received as the same value. -/
theorem PassesAlike.exists_content (passes : PassesAlike argument)
    (quickJS : QuickJS.Receives argument received) (jsc : JSC.Receives argument jscReceived) :
    ∃ content, received = some content ∧ jscReceived = some content := by
  cases argument with
  | none => exact passes.elim
  | some argument =>
      cases argument with
      | hitchArray hitches =>
          obtain ⟨fits, passes⟩ := passes
          obtain ⟨elements, isArray⟩ := jsc
          obtain ⟨same, areSome⟩ := map_madeUnits_of_passes isArray.each passes
          exact ⟨_, quickJS fits, same ▸ isArray.whole areSome⟩
      | text source =>
          obtain ⟨text, isText, made⟩ := passes.2.exists_units
          exact ⟨_, quickJS.trans (congrArg (Option.map _) made),
            jsc.read passes.1 text isText⟩
      | uint value => exact passes.elim
      | function identity function jscFunction => exact ⟨_, quickJS, jsc⟩
      | int value => exact ⟨_, quickJS, jsc⟩
      | double value => exact ⟨_, quickJS, jsc⟩
      | float value => exact ⟨_, quickJS, jsc⟩
      | bool value => exact ⟨_, quickJS, jsc⟩

theorem PassesAlike.countable (passes : PassesAlike argument) : Countable argument := by
  cases argument with
  | none => trivial
  | some argument =>
      cases argument with
      | hitchArray hitches => exact passes.1
      | _ => trivial

/-- What is regular and received as the same value passes alike. -/
theorem passesAlike_of_received {content : Content F} (countable : Countable argument)
    (regular : IsRegular argument)
    (quickJS : QuickJS.Receives argument (some content))
    (jsc : JSC.Receives argument (some content)) : PassesAlike argument := by
  cases argument with
  | none => cases jsc
  | some argument =>
      cases argument with
      | hitchArray hitches =>
          obtain ⟨elements, isArray⟩ := jsc
          exact ⟨countable, passes_of_map_madeUnits isArray.each regular
            (isArray.only _ (quickJS countable))⟩
      | text source =>
          obtain ⟨text, isText⟩ := regular
          by_cases hasMemory : source.HasMemory
          · have isString : some content = (QuickJS.madeUnits source.bytes).map .string := quickJS
            rw [jsc.read hasMemory text isText] at isString
            refine ⟨hasMemory, readsWholly_of_madeUnits isText ?_⟩
            cases made : QuickJS.madeUnits source.bytes with
            | none => simp [made] at isString
            | some units => simpa [made, eq_comm] using isString
          · have isString : some content = (QuickJS.madeUnits source.bytes).map .string := quickJS
            rw [jsc.undefined hasMemory] at isString
            cases made : QuickJS.madeUnits source.bytes <;> simp [made] at isString
      | uint value =>
          obtain rfl : content = .bigInt value := Option.some.inj quickJS
          cases jsc
      | _ => trivial

end Arguments

/-- All arguments are received as the same values exactly if each passes alike;
of those that are not regular this is enough. -/
theorem received_alike {arguments : List (Option (SwiftArgument F))}
    {received jscReceived : List (Option (Content F))}
    (quickJS : arguments.Forall₂ QuickJS.Receives received)
    (jsc : arguments.Forall₂ JSC.Receives jscReceived) :
    ((∀ argument ∈ arguments, PassesAlike argument) →
        ∃ contents : List (Content F),
          received = contents.map some ∧ jscReceived = contents.map some) ∧
      ∀ contents : List (Content F), received = contents.map some →
        jscReceived = contents.map some → (∀ argument ∈ arguments, Countable argument) →
        ∀ argument ∈ arguments, IsRegular argument → PassesAlike argument := by
  induction quickJS generalizing jscReceived with
  | nil =>
      cases jsc
      exact ⟨fun _ => ⟨[], rfl, rfl⟩, by simp⟩
  | cons first rest ih =>
      cases jsc with
      | cons jscFirst jscRest =>
          obtain ⟨enough, needed⟩ := ih jscRest
          constructor
          · intro passes
            rw [List.forall_mem_cons] at passes
            obtain ⟨content, isFirst, isJSCFirst⟩ := passes.1.exists_content first jscFirst
            obtain ⟨contents, isRest, isJSCRest⟩ := enough passes.2
            exact ⟨content :: contents, by rw [isFirst, isRest, List.map_cons],
              by rw [isJSCFirst, isJSCRest, List.map_cons]⟩
          · intro contents isReceived isJSCReceived countable
            cases contents with
            | nil => cases isReceived
            | cons content contents =>
                rw [List.map_cons, List.cons.injEq] at isReceived isJSCReceived
                rw [List.forall_mem_cons] at countable ⊢
                exact ⟨fun regular => passesAlike_of_received countable.1 regular
                    (isReceived.1 ▸ first) (isJSCReceived.1 ▸ jscFirst),
                  needed contents isReceived.2 isJSCReceived.2 countable.2⟩

end Jib
