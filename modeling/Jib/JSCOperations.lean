import Jib.JSCInterface

/-!
# The operations of the JavaScriptCore backend

Every function of the JavaScriptCore `Jib`, `JibFunction` and `JibUnknown`
sources that calls the engine, as the program of its engine calls.  Public
operations test `released` before they take the lock; the typed calls convert
their value after they have given it back.
-/

namespace Jib.JSC

open BinaryNumbers CommandProgram Program

/-! ## Strings -/

/-- `"undefined"`. -/
def undefinedHitch : Bytes := "undefined".toUTF8.toList

/-- The attempt that both `jsString` functions make on terminated memory. -/
def withJSString {α : Type} (memory : Bytes)
    (callback : JSStringRef → Operation (Option α)) : Operation (Option α) := do
  match ← jsStringCreateWithUTF8CString (cString memory) with
  | some jsstring => callback jsstring
  | none => return none

/-- `Hitch.jsString`. -/
def hitchJSString {α : Type} (hitch : Hitch)
    (callback : JSStringRef → Operation (Option α)) : Operation (Option α) :=
  match hitch.raw with
  | some memory =>
      if hitch.following = 0 then withJSString memory callback else return none
  | none => return none

/-- `HalfHitch.jsString`; an unterminated slice is copied. -/
def jsString {α : Type} (slice : HalfHitch)
    (callback : JSStringRef → Operation (Option α)) : Operation (Option α) :=
  match slice.raw with
  | some memory =>
      if slice.following = 0 then withJSString memory callback
      else hitchJSString (.ofBytes slice.bytes) callback
  | none => return none

/-- Memory of its own or not, a slice is read as its text. -/
theorem jsString_eq {α : Type} {slice : HalfHitch} (hasMemory : slice.raw.isSome = true)
    (callback : JSStringRef → Operation (Option α)) :
    jsString slice callback = withJSString slice.bytes callback := by
  obtain ⟨memory, isMemory⟩ := Option.isSome_iff_exists.mp hasMemory
  simp only [jsString, isMemory]
  split
  · rename_i terminated
    rw [withJSString, HalfHitch.cString_raw isMemory terminated]
    rfl
  · simp only [hitchJSString, Hitch.raw_ofBytes, Hitch.following_ofBytes, if_true, withJSString,
      cString_append_zero]

/-- A terminated `Hitch` is read as its text. -/
theorem hitchJSString_eq {α : Type} {hitch : Hitch} (hasMemory : hitch.raw.isSome = true)
    (terminated : hitch.following = 0) (callback : JSStringRef → Operation (Option α)) :
    hitchJSString hitch callback = withJSString hitch.halfhitch.bytes callback := by
  obtain ⟨memory, isMemory⟩ := Option.isSome_iff_exists.mp hasMemory
  have isRaw : hitch.halfhitch.raw = some memory := isMemory
  rw [withJSString, ← HalfHitch.cString_raw isRaw terminated]
  simp only [hitchJSString, isMemory, if_pos terminated]
  rfl

/-- `JSStringToHitch`. -/
def jsStringToHitch : Option JSStringRef → Operation Bytes
  | none => return undefinedHitch
  | some string => do
      let size ← jsStringGetMaximumUTF8CStringSize string
      let written ← jsStringGetUTF8CString string size
      return written.dropLast

/-- `CreateJSString(halfhitch:)`. -/
def createJSString (value : HalfHitch) : Operation (Option JSStringRef) :=
  jsString value fun string => return some string

theorem withJSString_some (memory : Bytes) :
    (withJSString memory fun string => return some string) =
      jsStringCreateWithUTF8CString (cString memory) := by
  refine congrArg (Program.call _) (funext ?_)
  intro string
  cases string <;> rfl

theorem createJSString_eq {slice : HalfHitch} (hasMemory : slice.raw.isSome = true) :
    createJSString slice = jsStringCreateWithUTF8CString (cString slice.bytes) :=
  (jsString_eq hasMemory _).trans (withJSString_some _)

/-! ## Reading JS values -/

variable (context : JSGlobalContextRef)

def jsValueToJson : Option JSValueRef → Operation (Option Bytes)
  | none => return none
  | some value => do
      match ← jsValueCreateJSONString context value with
      | some string =>
          let result ← jsStringToHitch (some string)
          jsStringRelease (some string)
          return some result
      | none => return none

def jsValueToHitch : Option JSValueRef → Operation (Option Bytes)
  | none => return none
  | some value => do
      let string ← jsValueToStringCopy context value
      let result ← jsStringToHitch string
      jsStringRelease string
      return some result

/-- `decode` is `JSONDecoder().decode` at the type asked for. -/
def jsValueToDecodable {D : Type} (decode : Bytes → Option D) :
    Option JSValueRef → Operation (Option D)
  | none => return none
  | some value => do
      if ← jsValueIsUndefined context value then return none
      else
        match ← jsValueToJson context (some value) with
        | some json => return decode json
        | none => return none

/-- `JibFunction.init(jib:object:)`. -/
def jibFunctionOfObject (object : JSObjectRef) : Operation JibFunction := do
  let bodyPtr ← jsObjectGetPrivate object
  jsValueProtect context (some object)
  let jsClass ← jsClassCreate
  return ⟨jsClass, some object, bodyPtr⟩

def jsValueToFunction : Option JSValueRef → Operation (Option JibFunction)
  | none => return none
  | some value => do
      if ← jsValueIsUndefined context value then return none
      else if ← jsObjectIsFunction context value then
        let function ← jibFunctionOfObject context value
        return some function
      else return none

def jsValueToDouble : Option JSValueRef → Operation (Option Binary64)
  | none => return none
  | some value => do
      if ← jsValueIsUndefined context value then return none
      else if ← jsValueIsNumber context value then
        let number ← jsValueToNumber context value
        return some number
      else return none

/-- `Int(_:)` of a `Double`. -/
def intOfDouble (number : Binary64) : Except Trap Int :=
  match number.truncated with
  | some integer =>
      if -2 ^ 63 ≤ integer ∧ integer < 2 ^ 63 then .ok integer
      else .error .outOfRange
  | none => .error .outOfRange

def jsValueToInt : Option JSValueRef → Operation (Except Trap (Option Int))
  | none => return .ok none
  | some value => do
      if ← jsValueIsUndefined context value then return .ok none
      else if ← jsValueIsNumber context value then
        let number ← jsValueToNumber context value
        return (intOfDouble number).map some
      else return .ok none

def jsValueToBool : Option JSValueRef → Operation (Option Bool)
  | none => return none
  | some value => do
      if ← jsValueIsUndefined context value then return none
      else if ← jsValueIsBoolean context value then
        let boolean ← jsValueToBoolean context value
        return some boolean
      else return none

/-- `record(exception:)`; its reply is always `nil`. -/
def record {α : Type} (jsException : JSValueRef) : Operation (Option α) := do
  let text ← jsValueToHitch context (some jsException)
  setException text
  return none

/-! ## Passing Swift values -/

/-- `createJibValue` of a string: `string` is what `jsString` gave. -/
def createStringJibValue (string : Option JSStringRef) : Operation JSValueRef :=
  match string with
  | some jsString => do
      match ← jsValueMakeString context jsString with
      | some result =>
          jsStringRelease (some jsString)
          return result
      | none => jsValueMakeUndefined context
  | none => jsValueMakeUndefined context

def halfHitchToJSValue (value : HalfHitch) : Operation (Option JSValueRef) :=
  jsString value fun string => do
    let result ← jsValueMakeString context string
    jsStringRelease (some string)
    return result

/-- `createJibValue(_:)` with a context, as callbacks use it. -/
def JibUnknown.createContextValue : JibUnknown → Operation (Option JSValueRef)
  | .jibFunction function =>
      match function.objectRef with
      | some objectRef => return some objectRef
      | none => some <$> jsValueMakeUndefined context
  | .hitchArray hitches => do
      let arguments ←
        mapEach (fun hitch => halfHitchToJSValue context hitch.halfhitch) hitches
      jsObjectMakeArray context arguments
  | .string bytes => do
      let string ← createJSString (.ofBytes bytes)
      some <$> createStringJibValue context string
  | .staticString bytes => do
      let string ← createJSString (.ofBytes bytes)
      some <$> createStringJibValue context string
  | .hitch text => do
      let string ← hitchJSString text fun string => return some string
      some <$> createStringJibValue context string
  | .halfHitch slice => do
      let string ← createJSString slice
      some <$> createStringJibValue context string
  | .int value => some <$> jsValueMakeNumber context (.ofInt value)
  | .uint value => some <$> jsValueMakeNumber context (.ofInt value)
  | .double value => some <$> jsValueMakeNumber context value
  | .float value => some <$> jsValueMakeNumber context value.widen
  | .bool value => some <$> jsValueMakeBoolean context value

variable (jib : JibFields)

/-- `createJibValue(_:)` with a `Jib`: the booleans are its fields. -/
def JibUnknown.createJibValue : JibUnknown → Operation (Option JSValueRef)
  | .bool value => return some (if value then jib.trueValue else jib.falseValue)
  | other => other.createContextValue jib.context

/-- One element of the argument list of a call. -/
def convertArgument : Option JibUnknown → Operation (Option JSValueRef)
  | some argument => argument.createJibValue jib
  | none => return none

/-! ## Calls -/

/-- `"jib.call failed to convert all arguments to JSValues"`. -/
def conversionFailed : Bytes :=
  "jib.call failed to convert all arguments to JSValues".toUTF8.toList

/-- `call(jsvalue:)` once it has the lock. -/
def callConverted (function : JibFunction) (given : Nat)
    (convertedArgs : List (Option JSValueRef)) : Operation (Option JSValueRef) :=
  if given ≠ convertedArgs.length then do
    setException (some conversionFailed)
    return none
  else do
    let (jsValue, exception) ←
      jsObjectCallAsFunction jib.context function.objectRef convertedArgs
    match exception with
    | some jsException => record jib.context jsException
    | none => return jsValue

/-- The test of `released` that every public operation starts with. -/
def unlessReleased {α : Type} (absent : α) (body : Operation α) : Operation α := do
  if ← readReleased then return absent else body

/-- What an operation on a `Jib` shows once it has the lock. -/
theorem shows_unlessReleased {α β State : Type} {look : State → Command → Option β}
    {handle : Handler interface State} {state : State} (noLook : look state .readReleased = none)
    (alive : (handle .readReleased state).1 = false) (absent : α) (body : Operation α) :
    (unlessReleased absent (locked body)).shows look handle state =
      body.shows look handle (handle .readReleased state).2 := by
  apply (shows_call _ _ _).trans
  rw [noLook]
  change [] ++ shows _ _ (if (handle .readReleased state).1 then _ else _) _ = _
  rw [alive, List.nil_append]
  exact shows_locked _ _

/-- `call(jsvalue:)`. -/
def callJSValue (function : JibFunction) (arguments : List (Option JibUnknown)) :
    Operation (Option JSValueRef) :=
  unlessReleased none (locked do
    let convertedArgs ← mapEach (convertArgument jib) arguments
    callConverted jib function arguments.length convertedArgs)

/-- The typed calls: call, give the lock back, convert the value. -/
def typedCall {α : Type} (convert : Option JSValueRef → Operation α)
    (function : JibFunction) (arguments : List (Option JibUnknown)) :
    Operation α := do
  let value ← callJSValue jib function arguments
  convert value

def callDecoded {D : Type} (decode : Bytes → Option D) :=
  typedCall jib (jsValueToDecodable jib.context decode)

def callFunction := typedCall jib (jsValueToFunction jib.context)

def callHitch := typedCall jib (jsValueToHitch jib.context)

def callHalfhitch := typedCall jib (jsValueToHitch jib.context)

def callString := typedCall jib (jsValueToHitch jib.context)

/-- `parse` is `String.date()`. -/
def callDate {D : Type} (parse : Bytes → Option D) (function : JibFunction)
    (arguments : List (Option JibUnknown)) : Operation (Option D) := do
  let value ← callHitch jib function arguments
  return value.bind parse

def callDouble := typedCall jib (jsValueToDouble jib.context)

def callInt := typedCall jib (jsValueToInt jib.context)

def callBool := typedCall jib (jsValueToBool jib.context)

def callJson := typedCall jib (jsValueToJson jib.context)

/-- `call(none:)` compares with `nil` and makes no engine call. -/
def callNone := typedCall jib fun value => return value.isSome

/-! ## Evaluation and resolution -/

def garbageCollect : Operation Unit :=
  unlessReleased () (locked (jsGarbageCollect jib.context))

/-- The closure that `eval` passes to `jsString`. -/
def evalScript (jsScript : JSStringRef) : Operation (Option Bool) := do
  let (_, exception) ← jsEvaluateScript jib.context jsScript
  match exception with
  | some jsException =>
      let recorded ← record jib.context jsException
      jsStringRelease (some jsScript)
      return recorded
  | none =>
      jsStringRelease (some jsScript)
      return some true

def eval (script : HalfHitch) : Operation (Option Bool) :=
  unlessReleased none (locked (jsString script (evalScript jib)))

/-- The value of the property, unless it is `undefined`. -/
def definedProperty (string : JSStringRef) : Operation (Option JSValueRef) := do
  match ← jsObjectGetProperty jib.context jib.global string with
  | some value =>
      if ← jsValueIsUndefined jib.context value then return none
      else return some value
  | none => return none

/-- The first attempt of `resolve`: the text as the name of a property. -/
def resolveGlobal (hitch : HalfHitch) : Operation (Option JSValueRef) :=
  if hitch.count < 128 then do
    match ← createJSString hitch with
    | some string =>
        let value ← definedProperty jib string
        jsStringRelease (some string)
        return value
    | none => return none
  else return none

/-- What the second attempt accepts: no exception and not `undefined`. -/
def acceptDefined :
    Option JSValueRef × Option JSValueRef → Operation (Option JSValueRef)
  | (some jsValue, none) => do
      if ← jsValueIsUndefined jib.context jsValue then return none
      else return some jsValue
  | _ => return none

/-- The second attempt of `resolve`: the text in parentheses. -/
def resolveParenthesized (hitch : HalfHitch) : Operation (Option JSValueRef) :=
  hitchJSString (Hitch.parenthesized hitch) fun jsScript => do
    let evaluated ← jsEvaluateScript jib.context jsScript
    let returnValue ← acceptDefined jib evaluated
    jsStringRelease (some jsScript)
    return returnValue

/-- What the third attempt accepts; an exception is recorded. -/
def acceptOrRecord :
    Option JSValueRef × Option JSValueRef → Operation (Option JSValueRef)
  | (_, some jsException) => record jib.context jsException
  | (jsValue, none) => return jsValue

/-- The third attempt of `resolve`: the text as it is. -/
def resolveUnmodified (hitch : HalfHitch) : Operation (Option JSValueRef) :=
  jsString hitch fun jsScript => do
    let evaluated ← jsEvaluateScript jib.context jsScript
    let returnValue ← acceptOrRecord jib evaluated
    jsStringRelease (some jsScript)
    return returnValue

/-- The attempts of `resolve` that evaluate. -/
def resolveEvaluated (hitch : HalfHitch) : Operation (Option JSValueRef) := do
  match ← resolveParenthesized jib hitch with
  | some returnValue => return some returnValue
  | none =>
      match ← resolveUnmodified jib hitch with
      | some returnValue => return some returnValue
      | none => return some jib.undefined

def resolve (hitch : HalfHitch) : Operation (Option JSValueRef) := do
  setException none
  match ← resolveGlobal jib hitch with
  | some value => return some value
  | none => resolveEvaluated jib hitch

/-- The typed subscripts: resolve and convert under the lock. -/
def typedSubscript {α : Type} (absent : α)
    (convert : Option JSValueRef → Operation α) (exec : HalfHitch) :
    Operation α :=
  unlessReleased absent (locked do
    let value ← resolve jib exec
    convert value)

def subscriptDecoded {D : Type} (decode : Bytes → Option D) :=
  typedSubscript jib none (jsValueToDecodable jib.context decode)

def subscriptFunction := typedSubscript jib none (jsValueToFunction jib.context)

def subscriptHitch := typedSubscript jib none (jsValueToHitch jib.context)

def subscriptHalfhitch := typedSubscript jib none (jsValueToHitch jib.context)

def subscriptString := typedSubscript jib none (jsValueToHitch jib.context)

/-- `parse` is `String.date()`. -/
def subscriptDate {D : Type} (parse : Bytes → Option D) (exec : HalfHitch) :
    Operation (Option D) := do
  let value ← subscriptHitch jib exec
  return value.bind parse

def subscriptDouble := typedSubscript jib none (jsValueToDouble jib.context)

def subscriptInt := typedSubscript jib (.ok none) (jsValueToInt jib.context)

def subscriptBool := typedSubscript jib none (jsValueToBool jib.context)

def subscriptJson := typedSubscript jib none (jsValueToJson jib.context)

end Jib.JSC
