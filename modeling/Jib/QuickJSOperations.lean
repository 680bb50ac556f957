import Jib.QuickJSInterface

/-!
# The operations of the QuickJS backend

Every function of the QuickJS `Jib`, `JibFunction` and `JibUnknown` sources
that calls the engine, as the program of its engine calls.  The typed calls
and typed subscripts differ only in how they convert the value they get.
-/

namespace Jib.QuickJS

open BinaryNumbers CommandProgram Program

/-! ## Exceptions -/

/-- `"Unknown Exception"`. -/
def unknownException : Bytes :=
  "Unknown Exception".toUTF8.toList

/-- The text that is recorded for a thrown value. -/
def exceptionHitch (exceptionValue : JSValue) : Operation Bytes := do
  match ← jsToCString exceptionValue with
  | some utf8 =>
      jsFreeCString utf8
      return cString utf8
  | none => return unknownException

/-- `recordException()`; its reply is always `nil`. -/
def recordException : Operation (Option Bool) := do
  let exceptionValue ← jsGetException
  let text ← exceptionHitch exceptionValue
  setException text
  jsFreeValue exceptionValue
  return none

/-- `recordIf(exception:)`. -/
def recordIf (value : JSValue) : Operation (Option Bool) :=
  if value.isException then recordException else return some true

/-! ## Reading JS values -/

/-- The `JS_ToCString` part of `JSValueToHitch` and `JSValueToJson`. -/
def hitchOfCString (value : JSValue) : Operation (Option Bytes) := do
  match ← jsToCString value with
  | some utf8 =>
      jsFreeCString utf8
      return some (cString utf8)
  | none => return none

def jsValueToJson (value : JSValue) : Operation (Option Bytes) :=
  if value.isUndefined then return none
  else do
    let json ← jsJSONStringify value .undefined .undefined
    let hitch ← hitchOfCString json
    jsFreeValue json
    return hitch

def jsValueToHitch (value : JSValue) : Operation (Option Bytes) :=
  if value.isUndefined then return none else hitchOfCString value

/-- `decode` is `JSONDecoder().decode` at the type asked for. -/
def jsValueToDecodable {D : Type} (decode : Bytes → Option D)
    (value : JSValue) : Operation (Option D) :=
  if value.isUndefined then return none
  else do
    match ← jsValueToJson value with
    | some json => return decode json
    | none => return none

def jsValueToFunction (value : JSValue) : Operation (Option JibFunction) :=
  if value.isUndefined then return none
  else do
    if ← jsIsFunction value then
      let functionValueRef ← jsDupValue value
      return some ⟨functionValueRef, none⟩
    else return none

def jsValueToDouble (value : JSValue) : Operation (Option Binary64) :=
  if value.isUndefined then return none
  else if value.isNumber then do
    let result ← jsToFloat64 value
    return some result
  else return none

def jsValueToInt (value : JSValue) : Operation (Option Int) :=
  if value.isUndefined then return none
  else if value.isNumber then do
    let result ← jsToInt64 value
    return some result
  else return none

def jsValueToBool (value : JSValue) : Operation (Option Bool) :=
  if value.isUndefined then return none
  else if value.isBool then do
    let result ← jsToBool value
    return some result
  else return none

/-! ## Passing Swift values -/

/-- `[Hitch].createJibValue`. -/
def createArrayJibValue (hitches : List Bytes) : Operation JSValue := do
  let arguments ← mapEach jsNewStringLen hitches
  let array ← jsNewArray
  let _ ← jsArrayPush array arguments
  forEach jsFreeValue arguments
  return array

def JibUnknown.createJibValue : JibUnknown → Operation JSValue
  | .jibFunction function => jsDupValue function.functionValueRef
  | .hitchArray hitches => createArrayJibValue hitches
  | .string bytes => jsNewStringLen bytes
  | .staticString bytes => jsNewStringLen bytes
  | .hitch bytes => jsNewStringLen bytes
  | .halfHitch slice => jsNewStringLen slice.bytes
  | .int value => return jsNewInt64 value
  | .uint value => jsNewBigUint64 value
  | .double value => return jsNewFloat64 value
  | .float value => return jsNewFloat64 value.widen
  | .bool value => return .bool value

/-- One element of the argument list of a call. -/
def convertArgument : Option JibUnknown → Operation JSValue
  | some argument => argument.createJibValue
  | none => return .undefined

/-! ## Calls -/

/-- `"jib.call failed to convert all arguments to JSValues"`. -/
def conversionFailed : Bytes :=
  "jib.call failed to convert all arguments to JSValues".toUTF8.toList

/-- The comparison of the two argument counts. -/
def checkConverted (given converted : Nat) : Operation Unit :=
  if given = converted then return () else setException conversionFailed

/-- `Int32(_:)` of the number of arguments traps on more; then nothing is called or
pushed. -/
def Command.CountFits : Command → Prop
  | .jsCall _ _ arguments => arguments.length < 2 ^ 31
  | .jsArrayPush _ arguments => arguments.length < 2 ^ 31
  | _ => True

/-- `call(jsvalue:)` once the arguments have been converted; it traps where the call does
not fit. -/
def callConverted (function : JibFunction) (convertedArgs : List JSValue) :
    Operation (Option JSValue) := do
  let result ← jsCall function.functionValueRef .undefined convertedArgs
  forEach jsFreeValue convertedArgs
  match ← recordIf result with
  | some _ => return some result
  | none => return none

/-- `call(jsvalue:)`. -/
def callJSValue (function : JibFunction) (arguments : List (Option JibUnknown)) :
    Operation (Option JSValue) := do
  let convertedArgs ← mapEach convertArgument arguments
  checkConverted arguments.length convertedArgs.length
  callConverted function convertedArgs

/-- The typed calls: call, convert the value, free it. -/
def typedCall {α : Type} (convert : JSValue → Operation (Option α))
    (function : JibFunction) (arguments : List (Option JibUnknown)) :
    Operation (Option α) :=
  locked do
    match ← callJSValue function arguments with
    | some jsValue =>
        let retValue ← convert jsValue
        jsFreeValue jsValue
        return retValue
    | none => return none

def callDecoded {D : Type} (decode : Bytes → Option D) :=
  typedCall (jsValueToDecodable decode)

def callFunction := typedCall jsValueToFunction

def callHitch := typedCall jsValueToHitch

def callHalfhitch := typedCall jsValueToHitch

def callString := typedCall jsValueToHitch

/-- `parse` is `String.date()`. -/
def callDate {D : Type} (parse : Bytes → Option D) (function : JibFunction)
    (arguments : List (Option JibUnknown)) : Operation (Option D) := do
  let retValue ← typedCall jsValueToHitch function arguments
  return retValue.bind parse

def callDouble := typedCall jsValueToDouble

def callInt := typedCall jsValueToInt

def callBool := typedCall jsValueToBool

def callJson := typedCall jsValueToJson

/-- The conversion of `call(none:)`. -/
def callNone := typedCall fun _ => return some true

/-! ## Evaluation and resolution -/

/-- The closure that `eval` and `resolve` pass to `nullTerminated`. -/
def evalScript (script : HalfHitch) : Operation (Option JSValue) :=
  match script.raw with
  | some memory => do
      let result ← jsEval memory script.count
      return some result
  | none => return none

def eval (script : HalfHitch) : Operation (Option Bool) :=
  locked do
    match ← evalScript script.nullTerminated with
    | some result =>
        let recorded ← recordIf result
        jsFreeValue result
        match recorded with
        | some _ => return some true
        | none => return none
    | none => return none

def resolve (hitch : HalfHitch) : Operation (Option JSValue) := do
  match ← evalScript (Hitch.parenthesized hitch).nullTerminated.2 with
  | some modifiedValue =>
      if modifiedValue.isException then evalScript hitch.nullTerminated
      else return some modifiedValue
  | none => evalScript hitch.nullTerminated

/-- The typed subscripts: resolve, convert the value, free it. -/
def typedSubscript {α : Type} (convert : JSValue → Operation (Option α))
    (exec : HalfHitch) : Operation (Option α) :=
  locked do
    match ← resolve exec with
    | some value =>
        let converted ← convert value
        jsFreeValue value
        return converted
    | none => return none

def subscriptDecoded {D : Type} (decode : Bytes → Option D) :=
  typedSubscript (jsValueToDecodable decode)

def subscriptFunction := typedSubscript jsValueToFunction

def subscriptHitch := typedSubscript jsValueToHitch

def subscriptHalfhitch := typedSubscript jsValueToHitch

def subscriptString := typedSubscript jsValueToHitch

/-- `parse` is `String.date()`. -/
def subscriptDate {D : Type} (parse : Bytes → Option D) (exec : HalfHitch) :
    Operation (Option D) := do
  let value ← subscriptHitch exec
  return value.bind parse

def subscriptDouble := typedSubscript jsValueToDouble

def subscriptInt := typedSubscript jsValueToInt

def subscriptBool := typedSubscript jsValueToBool

def subscriptJson := typedSubscript jsValueToJson

/-! ## Globals and functions -/

/-- `JS_SetProperty` and what follows it. -/
def assignGlobal (global : JSValue) (atom : Atom) (value : JSValue) :
    Operation (Option Bool) := do
  if ← jsSetProperty global atom value then return some true
  else recordException

/-- `set(global:value:)` with a `JSValue`.  `global` is the field of `Jib`. -/
def setGlobal (global : JSValue) (name : HalfHitch) (value : JSValue) :
    Operation (Option Bool) :=
  locked do
    let atom ← jsNewAtom (cString (name.raw.getD []))
    let result ← assignGlobal global atom value
    jsFreeAtom atom
    return result

/-- `set(global:value:)` with a `JibFunction`. -/
def setGlobalFunction (global : JSValue) (name : HalfHitch)
    (value : JibFunction) : Operation (Option Bool) :=
  setGlobal global name value.functionValueRef

/-- `JibFunction.init(jib:name:body:)`.  The engine reads the name up to a NUL
and keeps the low byte of the length. -/
def makeJibFunction (name : HalfHitch) (body : JibFunctionBody) :
    Operation JibFunction := do
  let bodyPtr ← makeRetainedPtr body
  let functionValue ←
    jsNewCFunctionMagic (cString (name.raw.getD [])) (name.count % 256) bodyPtr
  let functionValueRef ← jsDupValue functionValue
  return ⟨functionValueRef, some bodyPtr⟩

/-- `new(function:body:)`. -/
def newFunction (name : HalfHitch) (body : JibFunctionBody) :
    Operation (Option JibFunction) :=
  locked do
    let function ← makeJibFunction name body
    appendCustomFunction function
    return some function

def garbageCollect : Operation Unit :=
  locked jsRunGC

/-! ## Callbacks -/

/-- `"undefined"`. -/
def undefinedHitch : Bytes := "undefined".toUTF8.toList

/-- One element of the parameter list of a body. -/
def callbackParameter (argument : JSValue) : Operation Bytes := do
  let hitch ← jsValueToHitch argument
  return hitch.getD undefinedHitch

/-- What a body returns, as a JS value. -/
def callbackResult : Option JibUnknown → Operation JSValue
  | some result => result.createJibValue
  | none => return .undefined

/-- The C function that `JibFunction.init(jib:name:body:)` installs.  `bodyOf`
is `MakeRetainedClass` and gives the body that the magic points to. -/
def callback (bodyOf : AnyPtr → Option (List Bytes → Operation (Option JibUnknown)))
    (magic : AnyPtr) (arguments : List JSValue) : Operation JSValue :=
  match bodyOf magic with
  | some run => do
      let parameters ← mapEach callbackParameter arguments
      let result ← run parameters
      callbackResult result
  | none => return .undefined

/-! ## Creation and destruction -/

/-- `"global"`. -/
def globalName : HalfHitch := .ofBytes "global".toUTF8.toList

/-- `"print"`. -/
def printName : HalfHitch := .ofBytes "print".toUTF8.toList

/-- `"console = {}; console.log = print;"`. -/
def consoleScript : HalfHitch :=
  .ofBytes "console = {}; console.log = print;".toUTF8.toList

/-- `init()` after the runtime and the context exist.  It replies with the
global object and the `print` function. -/
def initJib (printBody : JibFunctionBody) :
    Operation (JSValue × Option JibFunction) := do
  let global ← jsGetGlobalObject
  let _ ← setGlobal global globalName global
  match ← newFunction printName printBody with
  | some printFn =>
      let _ ← setGlobalFunction global printName printFn
      let _ ← eval consoleScript
      return (global, some printFn)
  | none => return (global, none)

/-- `deinit`; `customFunctions` is the field of `Jib`. -/
def deinitJib (customFunctions : List JibFunction) : Operation Unit :=
  locked do
    forEach (fun function => jsFreeValue function.functionValueRef) customFunctions
    jsFreeContext
    jsFreeRuntime

end Jib.QuickJS
