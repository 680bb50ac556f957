import Jib.JSCOperations

/-!
# Creation and destruction in the JavaScriptCore backend

Functions, globals, the constructor with its optional source of a clone, and
the three places that give engine resources back.  Swift runs the `deinit` of
a function where its last reference goes away; where that happens inside an
operation, the functions concerned are a parameter.
-/

namespace Jib.JSC

open CommandProgram Program

/-- `"__jib_block"`, a constant of the module. -/
def jibCallbackProperyName : JSStringRef where
  pointer := 0
  text := "__jib_block".toUTF8.toList

/-! ## Functions -/

/-- `JibFunction.deinit`; the reference to the `Jib` is weak. -/
def JibFunction.deinit (function : JibFunction) : Operation Unit := do
  makeReleasedClass function.bodyPtr
  jsClassRelease function.jsClass
  match ← loadJib function with
  | some jib =>
      if ← readReleased then return ()
      else jsValueUnprotect jib.context function.objectRef
  | none => return ()

variable (jib : JibFields)

/-- `JibFunction.init(jib:name:body:)`.  When it fails all fields have been
set, so Swift runs `deinit`. -/
def makeJibFunction (name : HalfHitch) (body : JibFunctionBody) :
    Operation (Option JibFunction) := do
  let jsClass ← jsClassCreate
  let bodyPtr ← makeRetainedPtr body
  let functionName ← createJSString name
  match ← jsObjectMakeFunctionWithCallback jib.context functionName with
  | some objectRef =>
      let bodyObject ← jsObjectMake jib.context jsClass bodyPtr
      let _ ← jsObjectSetProperty jib.context objectRef
        (some jibCallbackProperyName) bodyObject 0
      jsValueProtect jib.context (some objectRef)
      jsStringRelease functionName
      return some ⟨jsClass, some objectRef, bodyPtr⟩
  | none =>
      jsStringRelease functionName
      JibFunction.deinit ⟨jsClass, none, bodyPtr⟩
      return none

/-- `new(function:body:)`. -/
def newFunction (name : HalfHitch) (body : JibFunctionBody) :
    Operation (Option JibFunction) :=
  unlessReleased none (locked do
    match ← makeJibFunction jib name body with
    | some function =>
        appendCustomFunction function
        return some function
    | none => return none)

/-! ## Callbacks -/

/-- One element of the parameter list of a body. -/
def callbackParameter (context : JSGlobalContextRef) (argument : JSValueRef) :
    Operation Bytes := do
  let hitch ← jsValueToHitch context (some argument)
  return hitch.getD undefinedHitch

/-- What a body returns, as a JS value. -/
def callbackResult (context : JSGlobalContextRef) :
    Option JibUnknown → Operation (Option JSValueRef)
  | some result => result.createContextValue context
  | none => return none

/-- The body is run on the arguments that are not `nil`. -/
def callbackRun (context : JSGlobalContextRef)
    (run : List Bytes → Operation (Option JibUnknown))
    (arguments : List (Option JSValueRef)) : Operation (Option JSValueRef) := do
  let parameters ← mapEach (callbackParameter context) (arguments.filterMap id)
  let result ← run parameters
  callbackResult context result

/-- The private data of a value that may be `nil`. -/
def privateData : Option JSObjectRef → Operation AnyPtr
  | some object => jsObjectGetPrivate object
  | none => return none

/-- The pointer that the callback finds behind `__jib_block`. -/
def callbackBody (context : JSGlobalContextRef) (function : JSObjectRef) :
    Operation AnyPtr := do
  let myCallbackIdValue ← jsObjectGetProperty context function jibCallbackProperyName
  privateData myCallbackIdValue

/-- The function that `JibFunction.init(jib:name:body:)` installs.  `bodyOf` is
`MakeRetainedClass` and gives the body at an address. -/
def callback (bodyOf : Address → Option (List Bytes → Operation (Option JibUnknown)))
    (context : JSGlobalContextRef) (function : JSObjectRef)
    (arguments : List (Option JSValueRef)) : Operation (Option JSValueRef) := do
  let bodyPtr ← callbackBody context function
  match bodyPtr.bind bodyOf with
  | some run => callbackRun context run arguments
  | none => return none

/-! ## Globals -/

/-- `set(global:value:)` with a `JSValueRef`. -/
def setGlobalValue (name : HalfHitch) (value : JSValueRef) :
    Operation (Option Bool) :=
  unlessReleased none (locked do
    let string ← createJSString name
    match ← jsObjectSetProperty jib.context jib.global string (some value)
        (kJSPropertyAttributeReadOnly ||| kJSPropertyAttributeDontEnum |||
          kJSPropertyAttributeDontDelete) with
    | some jsException =>
        let recorded ← record jib.context jsException
        jsStringRelease string
        return recorded
    | none =>
        jsStringRelease string
        return some true)

/-- `set(global:value:)` with a `JibFunction`. -/
def setGlobal (name : HalfHitch) (value : JibFunction) :
    Operation (Option Bool) :=
  setGlobalValue jib name (value.objectRef.getD jib.undefined)

/-! ## Creation -/

/-- One round of the loop over the property names of the clone's source. -/
def copyProperty (clone : JibFields) (cloneGlobal : JSObjectRef)
    (name : JSStringRef) : Operation Unit := do
  let value ← jsObjectGetProperty clone.context cloneGlobal name
  let _ ← jsObjectSetProperty jib.context jib.global (some name) value
    kJSPropertyAttributeDontDelete

/-- The loop over the enumerable properties of the clone's source. -/
def copyGlobals : Option JibFields → Operation Unit
  | some clone => do
      let cloneGlobal ← jsContextGetGlobalObject clone.context
      let names ← jsObjectCopyPropertyNames clone.context cloneGlobal
      forEach (copyProperty jib clone cloneGlobal) names.names
      jsPropertyNameArrayRelease names
  | none => return ()

/-- `"global"`. -/
def globalName : HalfHitch := .ofBytes "global".toUTF8.toList

/-- `"print"`. -/
def printName : HalfHitch := .ofBytes "print".toUTF8.toList

/-- `"console = {}; console.log = print;"`. -/
def consoleScript : HalfHitch :=
  .ofBytes "console = {}; console.log = print;".toUTF8.toList

/-- The end of `init(clone:_:)`. -/
def installConsole : Option JibFunction → Operation Unit
  | some printFn => do
      let _ ← setGlobal jib printName printFn
      let _ ← eval jib consoleScript
  | none => return ()

/-- `init(clone:_:)`. -/
def initJib (clone : Option JibFields) (printBody : JibFunctionBody) :
    Operation JibFields := do
  let group ← jsContextGroupCreate
  let context ← jsGlobalContextCreateInGroup group
  let global ← jsContextGetGlobalObject context
  let undefined ← jsValueMakeUndefined context
  let trueValue ← jsValueMakeBoolean context true
  let falseValue ← jsValueMakeBoolean context false
  let jib : JibFields := ⟨group, context, global, undefined, trueValue, falseValue⟩
  copyGlobals jib clone
  let _ ← setGlobalValue jib globalName global
  let printFn ← newFunction jib printName printBody
  setPrintFn printFn
  installConsole jib printFn
  return jib

/-! ## Destruction -/

/-- `if released == false { .. }` at the end of `release()` and `deinit`. -/
def releaseContext : Operation Unit := do
  if ← readReleased then return ()
  else do
    jsGlobalContextRelease jib.context
    jsContextGroupRelease jib.group
    setReleased

/-- The body of `release()` and of `deinit`.  `dropped` and `droppedPrint` are
the functions that only `customFunctions` and `printFn` still held. -/
def releaseBody (dropped : List JibFunction) (droppedPrint : Option JibFunction) :
    Operation Unit := do
  clearCustomFunctions
  forEach JibFunction.deinit dropped
  setPrintFn none
  forEach JibFunction.deinit droppedPrint.toList
  releaseContext jib

def release (dropped : List JibFunction) (droppedPrint : Option JibFunction) :
    Operation Unit :=
  locked (releaseBody jib dropped droppedPrint)

/-- `deinit` of `Jib`. -/
def deinitJib (dropped : List JibFunction) (droppedPrint : Option JibFunction) :
    Operation Unit :=
  locked (releaseBody jib dropped droppedPrint)

end Jib.JSC
