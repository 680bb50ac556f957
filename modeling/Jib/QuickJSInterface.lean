import Jib.BinaryNumbers
import Jib.CommandProgram
import Jib.HitchText

/-!
# The QuickJS functions that the Swift layer calls

A `JSValue` is its tag and payload; values with a negative tag point to
reference counted memory.  The commands are the engine functions that the
Swift layer calls on a runtime, and the accesses to the fields of `Jib` that
its operations share.  The inline functions of `quickjs.h` that only look at
a tag are functions here too.
-/

namespace Jib.QuickJS

open BinaryNumbers CommandProgram

abbrev Address := Nat

/-- Atoms are table indices. -/
abbrev Atom := Nat

/-- A Swift closure that was passed to `new(function:body:)`. -/
abbrev JibFunctionBody := Nat

/-- A retained pointer to a `JibBody`. -/
abbrev AnyPtr := Nat

/-- Tag and payload.  The tags that the engine keeps to itself are left out. -/
inductive JSValue
  | bigInt (pointer : Address)
  | symbol (pointer : Address)
  | string (pointer : Address)
  | object (pointer : Address)
  | int (value : Int)
  | bool (value : Bool)
  | null
  | undefined
  | exception
  | float64 (value : Binary64)
  deriving DecidableEq

namespace JSValue

/-- The reference counted memory a value points to, for the negative tags. -/
def pointer? : JSValue → Option Address
  | .bigInt pointer | .symbol pointer | .string pointer | .object pointer => some pointer
  | _ => none

/-- `JS_IsException`. -/
def isException : JSValue → Bool
  | .exception => true
  | _ => false

/-- `JS_IsUndefined`. -/
def isUndefined : JSValue → Bool
  | .undefined => true
  | _ => false

/-- `JS_IsNumber`. -/
def isNumber : JSValue → Bool
  | .int _ => true
  | .float64 _ => true
  | _ => false

/-- `JS_IsBool`. -/
def isBool : JSValue → Bool
  | .bool _ => true
  | _ => false

end JSValue

/-- `JS_NewInt64`. -/
def jsNewInt64 (value : Int) : JSValue :=
  if -2 ^ 31 ≤ value ∧ value < 2 ^ 31 then .int value
  else .float64 (.ofInt value)

/-- `JS_NewFloat64`.  A double with the bits of an `int32_t` becomes one; the
comparison of the bits keeps fractions and negative zero doubles. -/
def jsNewFloat64 (value : Binary64) : JSValue :=
  match value.truncated with
  | some integer =>
      if -2 ^ 31 ≤ integer ∧ integer < 2 ^ 31 ∧ Binary64.ofInt integer = value then
        .int integer
      else .float64 value
  | none => .float64 value

/-- A Swift wrapper of a JS function.  `bodyPtr` is set for the functions that
`new(function:body:)` made. -/
structure JibFunction where
  functionValueRef : JSValue
  bodyPtr : Option AnyPtr
  deriving DecidableEq

/-- The Swift values that can be passed to JS. -/
inductive JibUnknown
  | jibFunction (function : JibFunction)
  | hitchArray (hitches : List Bytes)
  | string (bytes : Bytes)
  | staticString (bytes : Bytes)
  | hitch (bytes : Bytes)
  | halfHitch (slice : HalfHitch)
  | int (value : Int)
  | uint (value : Nat)
  | double (value : Binary64)
  | float (value : Binary32)
  | bool (value : Bool)

/-- Calls into the engine, and accesses to the fields of `Jib`. -/
inductive Command
  | jsEval (input : Bytes) (inputLength : Nat)
  | jsCall (function this : JSValue) (arguments : List JSValue)
  | jsGetException
  | jsFreeValue (value : JSValue)
  | jsDupValue (value : JSValue)
  | jsToCString (value : JSValue)
  | jsFreeCString (utf8 : Bytes)
  | jsJSONStringify (value replacer space : JSValue)
  | jsIsFunction (value : JSValue)
  | jsToFloat64 (value : JSValue)
  | jsToInt64 (value : JSValue)
  | jsToBool (value : JSValue)
  | jsNewAtom (name : Bytes)
  | jsFreeAtom (atom : Atom)
  | jsSetProperty (object : JSValue) (atom : Atom) (value : JSValue)
  | jsNewCFunctionMagic (name : Bytes) (length : Nat) (magic : AnyPtr)
  | jsNewArray
  | jsArrayPush (array : JSValue) (arguments : List JSValue)
  | jsNewStringLen (bytes : Bytes)
  | jsNewBigUint64 (value : Nat)
  | jsGetGlobalObject
  | jsRunGC
  | jsFreeContext
  | jsFreeRuntime
  | setException (text : Bytes)
  | appendCustomFunction (function : JibFunction)
  | makeRetainedPtr (body : JibFunctionBody)

/-- `JS_SetProperty` answers `true` for `TRUE`; it is called with
`JS_PROP_THROW`, so everything else is an exception. -/
abbrev Answer : Command → Type
  | .jsEval .. => JSValue
  | .jsCall .. => JSValue
  | .jsGetException => JSValue
  | .jsFreeValue _ => Unit
  | .jsDupValue _ => JSValue
  | .jsToCString _ => Option Bytes
  | .jsFreeCString _ => Unit
  | .jsJSONStringify .. => JSValue
  | .jsIsFunction _ => Bool
  | .jsToFloat64 _ => Binary64
  | .jsToInt64 _ => Int
  | .jsToBool _ => Bool
  | .jsNewAtom _ => Atom
  | .jsFreeAtom _ => Unit
  | .jsSetProperty .. => Bool
  | .jsNewCFunctionMagic .. => JSValue
  | .jsNewArray => JSValue
  | .jsArrayPush .. => JSValue
  | .jsNewStringLen _ => JSValue
  | .jsNewBigUint64 _ => JSValue
  | .jsGetGlobalObject => JSValue
  | .jsRunGC => Unit
  | .jsFreeContext => Unit
  | .jsFreeRuntime => Unit
  | .setException _ => Unit
  | .appendCustomFunction _ => Unit
  | .makeRetainedPtr _ => AnyPtr

/-- The interface of the QuickJS backend. -/
abbrev interface : Interface where
  Command := Command
  Answer := Answer

abbrev Operation (α : Type) := Program interface α

/-- Answers of an engine without a heap whose scripts have one value. -/
def constantAnswer (evaluated : JSValue) : (command : Command) → Answer command
  | .jsEval .. => evaluated
  | .jsCall .. => .undefined
  | .jsGetException => .null
  | .jsFreeValue _ => ()
  | .jsDupValue value => value
  | .jsToCString _ => none
  | .jsFreeCString _ => ()
  | .jsJSONStringify .. => .undefined
  | .jsIsFunction _ => false
  | .jsToFloat64 _ => ⟨0⟩
  | .jsToInt64 _ => 0
  | .jsToBool _ => false
  | .jsNewAtom _ => 0
  | .jsFreeAtom _ => ()
  | .jsSetProperty .. => true
  | .jsNewCFunctionMagic .. => .undefined
  | .jsNewArray => .undefined
  | .jsArrayPush .. => .undefined
  | .jsNewStringLen _ => .undefined
  | .jsNewBigUint64 _ => .undefined
  | .jsGetGlobalObject => .undefined
  | .jsRunGC => ()
  | .jsFreeContext => ()
  | .jsFreeRuntime => ()
  | .setException _ => ()
  | .appendCustomFunction _ => ()
  | .makeRetainedPtr _ => 0

/-! ## Engine calls -/

@[simp]
def jsEval (input : Bytes) (inputLength : Nat) : Operation JSValue :=
  .call (.jsEval input inputLength) .done

@[simp]
def jsCall (function this : JSValue) (arguments : List JSValue) :
    Operation JSValue :=
  .call (.jsCall function this arguments) .done

@[simp]
def jsGetException : Operation JSValue :=
  .call .jsGetException .done

@[simp]
def jsFreeValue (value : JSValue) : Operation Unit :=
  .call (.jsFreeValue value) .done

@[simp]
def jsDupValue (value : JSValue) : Operation JSValue :=
  .call (.jsDupValue value) .done

@[simp]
def jsToCString (value : JSValue) : Operation (Option Bytes) :=
  .call (.jsToCString value) .done

@[simp]
def jsFreeCString (utf8 : Bytes) : Operation Unit :=
  .call (.jsFreeCString utf8) .done

@[simp]
def jsJSONStringify (value replacer space : JSValue) : Operation JSValue :=
  .call (.jsJSONStringify value replacer space) .done

@[simp]
def jsIsFunction (value : JSValue) : Operation Bool :=
  .call (.jsIsFunction value) .done

@[simp]
def jsToFloat64 (value : JSValue) : Operation Binary64 :=
  .call (.jsToFloat64 value) .done

@[simp]
def jsToInt64 (value : JSValue) : Operation Int :=
  .call (.jsToInt64 value) .done

@[simp]
def jsToBool (value : JSValue) : Operation Bool :=
  .call (.jsToBool value) .done

@[simp]
def jsNewAtom (name : Bytes) : Operation Atom :=
  .call (.jsNewAtom name) .done

@[simp]
def jsFreeAtom (atom : Atom) : Operation Unit :=
  .call (.jsFreeAtom atom) .done

@[simp]
def jsSetProperty (object : JSValue) (atom : Atom) (value : JSValue) :
    Operation Bool :=
  .call (.jsSetProperty object atom value) .done

@[simp]
def jsNewCFunctionMagic (name : Bytes) (length : Nat) (magic : AnyPtr) :
    Operation JSValue :=
  .call (.jsNewCFunctionMagic name length magic) .done

@[simp]
def jsNewArray : Operation JSValue :=
  .call .jsNewArray .done

@[simp]
def jsArrayPush (array : JSValue) (arguments : List JSValue) :
    Operation JSValue :=
  .call (.jsArrayPush array arguments) .done

@[simp]
def jsNewStringLen (bytes : Bytes) : Operation JSValue :=
  .call (.jsNewStringLen bytes) .done

@[simp]
def jsNewBigUint64 (value : Nat) : Operation JSValue :=
  .call (.jsNewBigUint64 value) .done

@[simp]
def jsGetGlobalObject : Operation JSValue :=
  .call .jsGetGlobalObject .done

@[simp]
def jsRunGC : Operation Unit :=
  .call .jsRunGC .done

@[simp]
def jsFreeContext : Operation Unit :=
  .call .jsFreeContext .done

@[simp]
def jsFreeRuntime : Operation Unit :=
  .call .jsFreeRuntime .done

@[simp]
def setException (text : Bytes) : Operation Unit :=
  .call (.setException text) .done

@[simp]
def appendCustomFunction (function : JibFunction) : Operation Unit :=
  .call (.appendCustomFunction function) .done

@[simp]
def makeRetainedPtr (body : JibFunctionBody) : Operation AnyPtr :=
  .call (.makeRetainedPtr body) .done

end Jib.QuickJS
