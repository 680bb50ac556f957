import Jib.BinaryNumbers
import Jib.CommandProgram
import Jib.HitchText

/-!
# The JavaScriptCore functions that the Swift layer calls

Values, contexts and groups are opaque references.  A string of the engine is
immutable, so its reference carries its text.  The commands are the engine
functions that the Swift layer calls, each with the context it is given, and
the accesses to the fields that operations share.
-/

namespace Jib.JSC

open BinaryNumbers CommandProgram

abbrev Address := Nat

abbrev JSContextGroupRef := Address

abbrev JSGlobalContextRef := Address

/-- A reference to a JS value; `nil` is `none` of an option. -/
abbrev JSValueRef := Address

abbrev JSObjectRef := JSValueRef

abbrev JSClassRef := Address

/-- A Swift closure that was passed to `new(function:body:)`. -/
abbrev JibFunctionBody := Nat

/-- A retained pointer to a `JibBody`, or `nil`. -/
abbrev AnyPtr := Option Address

/-- A string of the engine; `text` is its UTF-8 form. -/
structure JSStringRef where
  pointer : Address
  text : Bytes
  deriving DecidableEq

/-- The enumerable property names of an object. -/
structure JSPropertyNameArrayRef where
  pointer : Address
  names : List JSStringRef
  deriving DecidableEq

/-! ## Property attributes -/

def kJSPropertyAttributeReadOnly : Nat := 1 <<< 1

def kJSPropertyAttributeDontEnum : Nat := 1 <<< 2

def kJSPropertyAttributeDontDelete : Nat := 1 <<< 3

/-- The fields of a `Jib` that never change. -/
structure JibFields where
  group : JSContextGroupRef
  context : JSGlobalContextRef
  global : JSObjectRef
  undefined : JSObjectRef
  trueValue : JSObjectRef
  falseValue : JSObjectRef
  deriving DecidableEq

/-- A Swift wrapper of a JS function. -/
structure JibFunction where
  jsClass : JSClassRef
  objectRef : Option JSObjectRef
  bodyPtr : AnyPtr
  deriving DecidableEq

/-- The Swift values that can be passed to JS. -/
inductive JibUnknown
  | jibFunction (function : JibFunction)
  | hitchArray (hitches : List Hitch)
  | string (bytes : Bytes)
  | staticString (bytes : Bytes)
  | hitch (hitch : Hitch)
  | halfHitch (slice : HalfHitch)
  | int (value : Int)
  | uint (value : Nat)
  | double (value : Binary64)
  | float (value : Binary32)
  | bool (value : Bool)

/-- `Int(_:)` of a `Double` outside the range of `Int`. -/
inductive Trap
  | outOfRange
  deriving DecidableEq

/-- Calls into the engine, and accesses to the fields of `Jib` and
`JibFunction`. -/
inductive Command
  | readReleased
  | setException (text : Option Bytes)
  | appendCustomFunction (function : JibFunction)
  | clearCustomFunctions
  | setPrintFn (function : Option JibFunction)
  | setReleased
  | loadJib (function : JibFunction)
  | makeRetainedPtr (body : JibFunctionBody)
  | makeReleasedClass (bodyPtr : AnyPtr)
  | jsContextGroupCreate
  | jsContextGroupRelease (group : JSContextGroupRef)
  | jsGlobalContextCreateInGroup (group : JSContextGroupRef)
  | jsGlobalContextRelease (context : JSGlobalContextRef)
  | jsContextGetGlobalObject (context : JSGlobalContextRef)
  | jsStringCreateWithUTF8CString (text : Bytes)
  | jsStringRelease (string : Option JSStringRef)
  | jsStringGetMaximumUTF8CStringSize (string : JSStringRef)
  | jsStringGetUTF8CString (string : JSStringRef) (size : Nat)
  | jsClassCreate
  | jsClassRelease (jsClass : JSClassRef)
  | jsEvaluateScript (context : JSGlobalContextRef) (script : JSStringRef)
  | jsGarbageCollect (context : JSGlobalContextRef)
  | jsObjectCallAsFunction (context : JSGlobalContextRef)
      (object : Option JSObjectRef) (arguments : List (Option JSValueRef))
  | jsObjectGetProperty (context : JSGlobalContextRef) (object : JSObjectRef)
      (name : JSStringRef)
  | jsObjectSetProperty (context : JSGlobalContextRef) (object : JSObjectRef)
      (name : Option JSStringRef) (value : Option JSValueRef) (attributes : Nat)
  | jsObjectCopyPropertyNames (context : JSGlobalContextRef) (object : JSObjectRef)
  | jsPropertyNameArrayRelease (names : JSPropertyNameArrayRef)
  | jsObjectIsFunction (context : JSGlobalContextRef) (object : JSObjectRef)
  | jsObjectGetPrivate (object : JSObjectRef)
  | jsObjectMake (context : JSGlobalContextRef) (jsClass : JSClassRef) (data : AnyPtr)
  | jsObjectMakeArray (context : JSGlobalContextRef)
      (arguments : List (Option JSValueRef))
  | jsObjectMakeFunctionWithCallback (context : JSGlobalContextRef)
      (name : Option JSStringRef)
  | jsValueProtect (context : JSGlobalContextRef) (value : Option JSValueRef)
  | jsValueUnprotect (context : JSGlobalContextRef) (value : Option JSValueRef)
  | jsValueIsUndefined (context : JSGlobalContextRef) (value : JSValueRef)
  | jsValueIsNumber (context : JSGlobalContextRef) (value : JSValueRef)
  | jsValueIsBoolean (context : JSGlobalContextRef) (value : JSValueRef)
  | jsValueToNumber (context : JSGlobalContextRef) (value : JSValueRef)
  | jsValueToBoolean (context : JSGlobalContextRef) (value : JSValueRef)
  | jsValueToStringCopy (context : JSGlobalContextRef) (value : JSValueRef)
  | jsValueCreateJSONString (context : JSGlobalContextRef) (value : JSValueRef)
  | jsValueMakeUndefined (context : JSGlobalContextRef)
  | jsValueMakeBoolean (context : JSGlobalContextRef) (value : Bool)
  | jsValueMakeNumber (context : JSGlobalContextRef) (value : Binary64)
  | jsValueMakeString (context : JSGlobalContextRef) (string : JSStringRef)
  deriving DecidableEq

/-- Functions with an `exception` parameter that is not `NULL` answer with the
thrown value in the second component. -/
abbrev Answer : Command → Type
  | .readReleased => Bool
  | .setException _ => Unit
  | .appendCustomFunction _ => Unit
  | .clearCustomFunctions => Unit
  | .setPrintFn _ => Unit
  | .setReleased => Unit
  | .loadJib _ => Option JibFields
  | .makeRetainedPtr _ => AnyPtr
  | .makeReleasedClass _ => Unit
  | .jsContextGroupCreate => JSContextGroupRef
  | .jsContextGroupRelease _ => Unit
  | .jsGlobalContextCreateInGroup _ => JSGlobalContextRef
  | .jsGlobalContextRelease _ => Unit
  | .jsContextGetGlobalObject _ => JSObjectRef
  | .jsStringCreateWithUTF8CString _ => Option JSStringRef
  | .jsStringRelease _ => Unit
  | .jsStringGetMaximumUTF8CStringSize _ => Nat
  | .jsStringGetUTF8CString .. => Bytes
  | .jsClassCreate => JSClassRef
  | .jsClassRelease _ => Unit
  | .jsEvaluateScript .. => Option JSValueRef × Option JSValueRef
  | .jsGarbageCollect _ => Unit
  | .jsObjectCallAsFunction .. => Option JSValueRef × Option JSValueRef
  | .jsObjectGetProperty .. => Option JSValueRef
  | .jsObjectSetProperty .. => Option JSValueRef
  | .jsObjectCopyPropertyNames .. => JSPropertyNameArrayRef
  | .jsPropertyNameArrayRelease _ => Unit
  | .jsObjectIsFunction .. => Bool
  | .jsObjectGetPrivate _ => AnyPtr
  | .jsObjectMake .. => Option JSObjectRef
  | .jsObjectMakeArray .. => Option JSObjectRef
  | .jsObjectMakeFunctionWithCallback .. => Option JSObjectRef
  | .jsValueProtect .. => Unit
  | .jsValueUnprotect .. => Unit
  | .jsValueIsUndefined .. => Bool
  | .jsValueIsNumber .. => Bool
  | .jsValueIsBoolean .. => Bool
  | .jsValueToNumber .. => Binary64
  | .jsValueToBoolean .. => Bool
  | .jsValueToStringCopy .. => Option JSStringRef
  | .jsValueCreateJSONString .. => Option JSStringRef
  | .jsValueMakeUndefined _ => JSValueRef
  | .jsValueMakeBoolean .. => JSValueRef
  | .jsValueMakeNumber .. => JSValueRef
  | .jsValueMakeString .. => Option JSValueRef

/-- The interface of the JavaScriptCore backend. -/
abbrev interface : Interface where
  Command := Command
  Answer := Answer

abbrev Operation (α : Type) := Program interface α

/-- The context that a call is given, if it is given one. -/
@[simp]
def Command.context? : Command → Option JSGlobalContextRef
  | .jsGlobalContextRelease context
  | .jsContextGetGlobalObject context
  | .jsEvaluateScript context _
  | .jsGarbageCollect context
  | .jsObjectCallAsFunction context _ _
  | .jsObjectGetProperty context _ _
  | .jsObjectSetProperty context _ _ _ _
  | .jsObjectCopyPropertyNames context _
  | .jsObjectIsFunction context _
  | .jsObjectMake context _ _
  | .jsObjectMakeArray context _
  | .jsObjectMakeFunctionWithCallback context _
  | .jsValueProtect context _
  | .jsValueUnprotect context _
  | .jsValueIsUndefined context _
  | .jsValueIsNumber context _
  | .jsValueIsBoolean context _
  | .jsValueToNumber context _
  | .jsValueToBoolean context _
  | .jsValueToStringCopy context _
  | .jsValueCreateJSONString context _
  | .jsValueMakeUndefined context
  | .jsValueMakeBoolean context _
  | .jsValueMakeNumber context _
  | .jsValueMakeString context _ => some context
  | _ => none

/-- Answers of a context that holds nothing; reference 0 is `undefined`. -/
def emptyAnswer : (command : Command) → Answer command
  | .readReleased => false
  | .setException _ => ()
  | .appendCustomFunction _ => ()
  | .clearCustomFunctions => ()
  | .setPrintFn _ => ()
  | .setReleased => ()
  | .loadJib _ => none
  | .makeRetainedPtr _ => none
  | .makeReleasedClass _ => ()
  | .jsContextGroupCreate => 0
  | .jsContextGroupRelease _ => ()
  | .jsGlobalContextCreateInGroup _ => 0
  | .jsGlobalContextRelease _ => ()
  | .jsContextGetGlobalObject _ => 0
  | .jsStringCreateWithUTF8CString text => some ⟨0, text⟩
  | .jsStringRelease _ => ()
  | .jsStringGetMaximumUTF8CStringSize string => string.text.length + 1
  | .jsStringGetUTF8CString string _ => string.text ++ [0]
  | .jsClassCreate => 0
  | .jsClassRelease _ => ()
  | .jsEvaluateScript _ _ => (some 0, none)
  | .jsGarbageCollect _ => ()
  | .jsObjectCallAsFunction _ _ _ => (some 0, none)
  | .jsObjectGetProperty _ _ _ => some 0
  | .jsObjectSetProperty _ _ _ _ _ => none
  | .jsObjectCopyPropertyNames _ _ => ⟨0, []⟩
  | .jsPropertyNameArrayRelease _ => ()
  | .jsObjectIsFunction _ _ => false
  | .jsObjectGetPrivate _ => none
  | .jsObjectMake _ _ _ => some 0
  | .jsObjectMakeArray _ _ => some 0
  | .jsObjectMakeFunctionWithCallback _ _ => some 0
  | .jsValueProtect _ _ => ()
  | .jsValueUnprotect _ _ => ()
  | .jsValueIsUndefined _ value => value == 0
  | .jsValueIsNumber _ _ => false
  | .jsValueIsBoolean _ _ => false
  | .jsValueToNumber _ _ => ⟨0⟩
  | .jsValueToBoolean _ _ => true
  | .jsValueToStringCopy _ _ => none
  | .jsValueCreateJSONString _ _ => none
  | .jsValueMakeUndefined _ => 0
  | .jsValueMakeBoolean _ _ => 0
  | .jsValueMakeNumber _ _ => 0
  | .jsValueMakeString _ _ => some 0

/-- The fields of a `Jib` in the examples. -/
def someJib : JibFields := ⟨0, 0, 0, 0, 0, 0⟩

/-! ## Engine calls -/

@[simp]
def readReleased : Operation Bool :=
  .call .readReleased .done

@[simp]
def setException (text : Option Bytes) : Operation Unit :=
  .call (.setException text) .done

@[simp]
def appendCustomFunction (function : JibFunction) : Operation Unit :=
  .call (.appendCustomFunction function) .done

@[simp]
def clearCustomFunctions : Operation Unit :=
  .call .clearCustomFunctions .done

@[simp]
def setPrintFn (function : Option JibFunction) : Operation Unit :=
  .call (.setPrintFn function) .done

@[simp]
def setReleased : Operation Unit :=
  .call .setReleased .done

@[simp]
def loadJib (function : JibFunction) : Operation (Option JibFields) :=
  .call (.loadJib function) .done

@[simp]
def makeRetainedPtr (body : JibFunctionBody) : Operation AnyPtr :=
  .call (.makeRetainedPtr body) .done

@[simp]
def makeReleasedClass (bodyPtr : AnyPtr) : Operation Unit :=
  .call (.makeReleasedClass bodyPtr) .done

@[simp]
def jsContextGroupCreate : Operation JSContextGroupRef :=
  .call .jsContextGroupCreate .done

@[simp]
def jsContextGroupRelease (group : JSContextGroupRef) : Operation Unit :=
  .call (.jsContextGroupRelease group) .done

@[simp]
def jsGlobalContextCreateInGroup (group : JSContextGroupRef) :
    Operation JSGlobalContextRef :=
  .call (.jsGlobalContextCreateInGroup group) .done

@[simp]
def jsGlobalContextRelease (context : JSGlobalContextRef) : Operation Unit :=
  .call (.jsGlobalContextRelease context) .done

@[simp]
def jsContextGetGlobalObject (context : JSGlobalContextRef) :
    Operation JSObjectRef :=
  .call (.jsContextGetGlobalObject context) .done

@[simp]
def jsStringCreateWithUTF8CString (text : Bytes) :
    Operation (Option JSStringRef) :=
  .call (.jsStringCreateWithUTF8CString text) .done

@[simp]
def jsStringRelease (string : Option JSStringRef) : Operation Unit :=
  .call (.jsStringRelease string) .done

@[simp]
def jsStringGetMaximumUTF8CStringSize (string : JSStringRef) : Operation Nat :=
  .call (.jsStringGetMaximumUTF8CStringSize string) .done

@[simp]
def jsStringGetUTF8CString (string : JSStringRef) (size : Nat) :
    Operation Bytes :=
  .call (.jsStringGetUTF8CString string size) .done

@[simp]
def jsClassCreate : Operation JSClassRef :=
  .call .jsClassCreate .done

@[simp]
def jsClassRelease (jsClass : JSClassRef) : Operation Unit :=
  .call (.jsClassRelease jsClass) .done

@[simp]
def jsEvaluateScript (context : JSGlobalContextRef) (script : JSStringRef) :
    Operation (Option JSValueRef × Option JSValueRef) :=
  .call (.jsEvaluateScript context script) .done

@[simp]
def jsGarbageCollect (context : JSGlobalContextRef) : Operation Unit :=
  .call (.jsGarbageCollect context) .done

@[simp]
def jsObjectCallAsFunction (context : JSGlobalContextRef)
    (object : Option JSObjectRef) (arguments : List (Option JSValueRef)) :
    Operation (Option JSValueRef × Option JSValueRef) :=
  .call (.jsObjectCallAsFunction context object arguments) .done

@[simp]
def jsObjectGetProperty (context : JSGlobalContextRef) (object : JSObjectRef)
    (name : JSStringRef) : Operation (Option JSValueRef) :=
  .call (.jsObjectGetProperty context object name) .done

@[simp]
def jsObjectSetProperty (context : JSGlobalContextRef) (object : JSObjectRef)
    (name : Option JSStringRef) (value : Option JSValueRef) (attributes : Nat) :
    Operation (Option JSValueRef) :=
  .call (.jsObjectSetProperty context object name value attributes) .done

@[simp]
def jsObjectCopyPropertyNames (context : JSGlobalContextRef)
    (object : JSObjectRef) : Operation JSPropertyNameArrayRef :=
  .call (.jsObjectCopyPropertyNames context object) .done

@[simp]
def jsPropertyNameArrayRelease (names : JSPropertyNameArrayRef) :
    Operation Unit :=
  .call (.jsPropertyNameArrayRelease names) .done

@[simp]
def jsObjectIsFunction (context : JSGlobalContextRef) (object : JSObjectRef) :
    Operation Bool :=
  .call (.jsObjectIsFunction context object) .done

@[simp]
def jsObjectGetPrivate (object : JSObjectRef) : Operation AnyPtr :=
  .call (.jsObjectGetPrivate object) .done

@[simp]
def jsObjectMake (context : JSGlobalContextRef) (jsClass : JSClassRef)
    (data : AnyPtr) : Operation (Option JSObjectRef) :=
  .call (.jsObjectMake context jsClass data) .done

@[simp]
def jsObjectMakeArray (context : JSGlobalContextRef)
    (arguments : List (Option JSValueRef)) : Operation (Option JSObjectRef) :=
  .call (.jsObjectMakeArray context arguments) .done

@[simp]
def jsObjectMakeFunctionWithCallback (context : JSGlobalContextRef)
    (name : Option JSStringRef) : Operation (Option JSObjectRef) :=
  .call (.jsObjectMakeFunctionWithCallback context name) .done

@[simp]
def jsValueProtect (context : JSGlobalContextRef) (value : Option JSValueRef) :
    Operation Unit :=
  .call (.jsValueProtect context value) .done

@[simp]
def jsValueUnprotect (context : JSGlobalContextRef) (value : Option JSValueRef) :
    Operation Unit :=
  .call (.jsValueUnprotect context value) .done

@[simp]
def jsValueIsUndefined (context : JSGlobalContextRef) (value : JSValueRef) :
    Operation Bool :=
  .call (.jsValueIsUndefined context value) .done

@[simp]
def jsValueIsNumber (context : JSGlobalContextRef) (value : JSValueRef) :
    Operation Bool :=
  .call (.jsValueIsNumber context value) .done

@[simp]
def jsValueIsBoolean (context : JSGlobalContextRef) (value : JSValueRef) :
    Operation Bool :=
  .call (.jsValueIsBoolean context value) .done

@[simp]
def jsValueToNumber (context : JSGlobalContextRef) (value : JSValueRef) :
    Operation Binary64 :=
  .call (.jsValueToNumber context value) .done

@[simp]
def jsValueToBoolean (context : JSGlobalContextRef) (value : JSValueRef) :
    Operation Bool :=
  .call (.jsValueToBoolean context value) .done

@[simp]
def jsValueToStringCopy (context : JSGlobalContextRef) (value : JSValueRef) :
    Operation (Option JSStringRef) :=
  .call (.jsValueToStringCopy context value) .done

@[simp]
def jsValueCreateJSONString (context : JSGlobalContextRef)
    (value : JSValueRef) : Operation (Option JSStringRef) :=
  .call (.jsValueCreateJSONString context value) .done

@[simp]
def jsValueMakeUndefined (context : JSGlobalContextRef) : Operation JSValueRef :=
  .call (.jsValueMakeUndefined context) .done

@[simp]
def jsValueMakeBoolean (context : JSGlobalContextRef) (value : Bool) :
    Operation JSValueRef :=
  .call (.jsValueMakeBoolean context value) .done

@[simp]
def jsValueMakeNumber (context : JSGlobalContextRef) (value : Binary64) :
    Operation JSValueRef :=
  .call (.jsValueMakeNumber context value) .done

@[simp]
def jsValueMakeString (context : JSGlobalContextRef) (string : JSStringRef) :
    Operation (Option JSValueRef) :=
  .call (.jsValueMakeString context string) .done

end Jib.JSC
