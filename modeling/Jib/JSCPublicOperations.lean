import Jib.JSCValues
import Jib.SerialThreadsSteps

/-!
# The public operations of the JavaScriptCore backend

What a thread can ask of a `Jib` and the program that serves it.  Every
operation first reads `released`, then does its work between one acquisition
of the lock and one release; the typed calls go on to convert their value.
-/

namespace Jib.JSC

open BinaryNumbers CommandProgram Program

variable {D : Type}

/-- The types at which calls and subscripts read their value.  `D` is what the
decoders and the date parser produce. -/
inductive Reader (D : Type)
  | decoded (decode : Bytes → Option D)
  | function
  | hitch
  | halfhitch
  | string
  | date (parse : Bytes → Option D)
  | double
  | int
  | bool
  | json

/-- What an operation returns. -/
inductive Reply (D : Type)
  | nothing
  | success (value : Option Bool)
  | called (value : Bool)
  | decoded (value : Option D)
  | function (value : Option JibFunction)
  | text (value : Option Bytes)
  | double (value : Option Binary64)
  | int (value : Except Trap (Option Int))
  | bool (value : Option Bool)

inductive PublicOperation (D : Type)
  | eval (script : HalfHitch)
  | setGlobalValue (name : HalfHitch) (value : JSValueRef)
  | setGlobal (name : HalfHitch) (value : JibFunction)
  | newFunction (name : HalfHitch) (body : JibFunctionBody)
  | garbageCollect
  | subscript (reader : Reader D) (exec : HalfHitch)
  | call (reader : Reader D) (function : JibFunction)
      (arguments : List (Option JibUnknown))
  | callNone (function : JibFunction) (arguments : List (Option JibUnknown))

variable (jib : JibFields)

/-- The reply is `nil`; a trap is not. -/
def Reply.isNil : Reply D → Bool
  | .nothing => false
  | .success value => value.isNone
  | .called _ => false
  | .decoded value => value.isNone
  | .function value => value.isNone
  | .text value => value.isNone
  | .double value => value.isNone
  | .int (.ok value) => value.isNone
  | .int (.error _) => false
  | .bool value => value.isNone

def Reader.subscript (exec : HalfHitch) : Reader D → Operation (Reply D)
  | .decoded decode => return .decoded (← subscriptDecoded jib decode exec)
  | .function => return .function (← subscriptFunction jib exec)
  | .hitch => return .text (← subscriptHitch jib exec)
  | .halfhitch => return .text (← subscriptHalfhitch jib exec)
  | .string => return .text (← subscriptString jib exec)
  | .date parse => return .decoded (← subscriptDate jib parse exec)
  | .double => return .double (← subscriptDouble jib exec)
  | .int => return .int (← subscriptInt jib exec)
  | .bool => return .bool (← subscriptBool jib exec)
  | .json => return .text (← subscriptJson jib exec)

def Reader.call (function : JibFunction) (arguments : List (Option JibUnknown)) :
    Reader D → Operation (Reply D)
  | .decoded decode =>
      return .decoded (← callDecoded jib decode function arguments)
  | .function => return .function (← callFunction jib function arguments)
  | .hitch => return .text (← callHitch jib function arguments)
  | .halfhitch => return .text (← callHalfhitch jib function arguments)
  | .string => return .text (← callString jib function arguments)
  | .date parse => return .decoded (← callDate jib parse function arguments)
  | .double => return .double (← callDouble jib function arguments)
  | .int => return .int (← callInt jib function arguments)
  | .bool => return .bool (← callBool jib function arguments)
  | .json => return .text (← callJson jib function arguments)

def PublicOperation.program : PublicOperation D → Operation (Reply D)
  | .eval script => return .success (← JSC.eval jib script)
  | .setGlobalValue name value =>
      return .success (← JSC.setGlobalValue jib name value)
  | .setGlobal name value => return .success (← JSC.setGlobal jib name value)
  | .newFunction name body => return .function (← JSC.newFunction jib name body)
  | .garbageCollect => do
      JSC.garbageCollect jib
      return .nothing
  | .subscript reader exec => reader.subscript jib exec
  | .call reader function arguments => reader.call jib function arguments
  | .callNone function arguments =>
      return .called (← JSC.callNone jib function arguments)

/-- The values that an operation is given. -/
def PublicOperation.values : PublicOperation D → List JSValueRef
  | .setGlobalValue _ value => [value]
  | .setGlobal _ value => value.objectRef.toList
  | .call _ function arguments =>
      function.objectRef.toList ++ arguments.flatMap fun argument =>
        argument.toList.flatMap JibUnknown.values
  | .callNone function arguments =>
      function.objectRef.toList ++ arguments.flatMap fun argument =>
        argument.toList.flatMap JibUnknown.values
  | _ => []

/-- The functions that a reply gives to the program. -/
def Reply.functions : Reply D → List JibFunction
  | .function made => made.toList
  | _ => []

/-- The functions of a reply hold owned objects and no bodies. -/
def Reply.Found (Own : JSValueRef → Prop) (reply : Reply D) : Prop :=
  ∀ function ∈ reply.functions, function.bodyPtr = none ∧ OwnOption Own function.objectRef

/-! ## What the bodies of the operations use -/

/-- The commands that end the life of a context. -/
@[simp]
def Command.endsLifetime : Command → Bool
  | .setReleased => true
  | .jsGlobalContextRelease _ => true
  | .jsContextGroupRelease _ => true
  | _ => false

/-- The engine calls that readers make, and what recording an exception
writes. -/
@[simp]
def Command.isReader : Command → Bool
  | .setException _ => true
  | .jsStringRelease _ => true
  | .jsStringGetMaximumUTF8CStringSize _ => true
  | .jsStringGetUTF8CString .. => true
  | .jsClassCreate => true
  | .jsObjectIsFunction .. => true
  | .jsObjectGetPrivate _ => true
  | .jsValueProtect .. => true
  | .jsValueIsUndefined .. => true
  | .jsValueIsNumber .. => true
  | .jsValueIsBoolean .. => true
  | .jsValueToNumber .. => true
  | .jsValueToBoolean .. => true
  | .jsValueToStringCopy .. => true
  | .jsValueCreateJSONString .. => true
  | _ => false

/-- The engine calls that readers make. -/
@[simp]
def Command.readsOnly : Command → Bool
  | .setException _ => false
  | command => command.isReader

/-- The engine calls of readers that hold on to nothing and convert nothing to a
string. -/
@[simp]
def Command.looksOnly : Command → Bool
  | .jsClassCreate => false
  | .jsObjectGetPrivate _ => false
  | .jsValueProtect .. => false
  | .jsValueToStringCopy .. => false
  | command => command.readsOnly

/-- Those calls, and those that make values or look for a property. -/
@[simp]
def Command.isLight : Command → Bool
  | .jsStringCreateWithUTF8CString _ => true
  | .jsObjectGetProperty .. => true
  | .jsObjectMakeArray .. => true
  | .jsValueMakeUndefined _ => true
  | .jsValueMakeBoolean .. => true
  | .jsValueMakeNumber .. => true
  | .jsValueMakeString .. => true
  | command => command.looksOnly

/-- Commands that give or take nothing that a `JibFunction` holds, leave the lists
of functions alone and end no lifetime. -/
@[simp]
def Command.isNeutral : Command → Bool
  | .appendCustomFunction _ => false
  | .clearCustomFunctions => false
  | .setPrintFn _ => false
  | .makeRetainedPtr _ => false
  | .makeReleasedClass _ => false
  | .jsClassCreate => false
  | .jsClassRelease _ => false
  | .jsValueProtect .. => false
  | .jsValueUnprotect .. => false
  | command => !command.endsLifetime

abbrev LooksOnly {α : Type} (program : Operation α) : Prop :=
  program.Uses fun command : Command => command.looksOnly = true

abbrev Light {α : Type} (program : Operation α) : Prop :=
  program.Uses fun command : Command => command.isLight = true

abbrev Neutral {α : Type} (program : Operation α) : Prop :=
  program.Uses fun command : Command => command.isNeutral = true

/-- Only the calls of readers. -/
abbrev ReadsOnly {α : Type} (program : Operation α) : Prop :=
  program.Uses fun command : Command => command.readsOnly = true

/-- Commands that run no script, function or setter that they are given and leave
the `exception` field alone. -/
@[simp]
def Command.isQuiet : Command → Bool
  | .setException _ => false
  | .jsEvaluateScript .. => false
  | .jsObjectCallAsFunction .. => false
  | .jsObjectSetProperty .. => false
  | command => !command.endsLifetime

/-- Only quiet commands. -/
abbrev Quiet {α : Type} (program : Operation α) : Prop :=
  program.Uses fun command : Command => command.isQuiet = true

/-- Only the calls of readers and recordings. -/
abbrev Reading {α : Type} (program : Operation α) : Prop :=
  program.Uses fun command : Command => command.isReader = true

/-- Any other commands, but not the lock. -/
abbrev LockFree {α : Type} (program : Operation α) : Prop :=
  program.Uses fun command : Command => command.endsLifetime = false

theorem LooksOnly.readsOnly {α : Type} {program : Operation α}
    (looksOnly : LooksOnly program) : ReadsOnly program :=
  Uses.mono looksOnly fun command isOne => by
    cases command <;> first | rfl | cases isOne

theorem LooksOnly.light {α : Type} {program : Operation α}
    (looksOnly : LooksOnly program) : Light program :=
  Uses.mono looksOnly fun command isOne => by
    cases command <;> first | rfl | cases isOne

theorem Light.quiet {α : Type} {program : Operation α} (light : Light program) : Quiet program :=
  Uses.mono light fun command isOne => by
    cases command <;> first | rfl | cases isOne

theorem Light.neutral {α : Type} {program : Operation α} (light : Light program) :
    Neutral program :=
  Uses.mono light fun command isOne => by
    cases command <;> first | rfl | cases isOne

theorem ReadsOnly.reading {α : Type} {program : Operation α}
    (readsOnly : ReadsOnly program) : Reading program :=
  Uses.mono readsOnly fun command isOne => by
    cases command <;> first | rfl | cases isOne

theorem ReadsOnly.quiet {α : Type} {program : Operation α}
    (readsOnly : ReadsOnly program) : Quiet program :=
  Uses.mono readsOnly fun command isOne => by
    cases command <;> first | rfl | cases isOne

theorem Neutral.lockFree {α : Type} {program : Operation α}
    (neutral : Neutral program) : LockFree program :=
  Uses.mono neutral fun command isOne => by
    cases command <;> first | rfl | cases isOne

theorem Reading.lockFree {α : Type} {program : Operation α}
    (reading : Reading program) : LockFree program :=
  Uses.mono reading fun command isReader => by
    cases command <;> first | rfl | cases isReader

section Strings

variable {α : Type} {Allowed : Command → Prop} {callback : JSStringRef → Operation (Option α)}
  (creates : ∀ text, Allowed (.jsStringCreateWithUTF8CString text))
  (uses : ∀ string, (callback string).Uses Allowed)
include creates uses

theorem uses_withJSString (memory : Bytes) : (withJSString memory callback).Uses Allowed := by
  refine ⟨creates _, ?_⟩
  intro string
  cases string with
  | none => trivial
  | some string => exact uses string

theorem uses_hitchJSString (hitch : Hitch) : (hitchJSString hitch callback).Uses Allowed := by
  unfold hitchJSString
  split
  · split
    · exact uses_withJSString creates uses _
    · trivial
  · trivial

theorem uses_jsString (slice : HalfHitch) : (jsString slice callback).Uses Allowed := by
  unfold jsString
  split
  · split
    · exact uses_withJSString creates uses _
    · exact uses_hitchJSString creates uses _
  · trivial

end Strings

theorem light_createJSString (value : HalfHitch) : Light (createJSString value) :=
  uses_jsString (fun _ => rfl) (fun _ => by simp) value

theorem looksOnly_jsStringToHitch (string : Option JSStringRef) :
    LooksOnly (jsStringToHitch string) := by
  cases string <;> simp [jsStringToHitch]

section Readers

variable (context : JSGlobalContextRef) (value : Option JSValueRef)

theorem looksOnly_jsValueToJson : LooksOnly (jsValueToJson context value) := by
  cases value with
  | none => simp [jsValueToJson]
  | some value =>
      simp only [jsValueToJson, jsValueCreateJSONString, call_bind, done_bind,
        uses_call, Command.looksOnly, Command.readsOnly, Command.isReader, true_and]
      intro string
      cases string with
      | none => simp
      | some string =>
          exact (looksOnly_jsStringToHitch (some string)).bind fun _ => by simp

theorem readsOnly_jsValueToHitch : ReadsOnly (jsValueToHitch context value) := by
  cases value with
  | none => simp [jsValueToHitch]
  | some value =>
      simp only [jsValueToHitch, jsValueToStringCopy, call_bind, done_bind,
        uses_call, Command.readsOnly, Command.isReader, true_and]
      intro string
      exact (looksOnly_jsStringToHitch string).readsOnly.bind fun _ => by simp

theorem looksOnly_jsValueToDecodable (decode : Bytes → Option D) :
    LooksOnly (jsValueToDecodable context decode value) := by
  cases value with
  | none => simp [jsValueToDecodable]
  | some value =>
      simp only [jsValueToDecodable, jsValueIsUndefined, call_bind, done_bind,
        uses_call, Command.looksOnly, Command.readsOnly, Command.isReader, true_and]
      intro isUndefined
      split
      · simp
      · apply (looksOnly_jsValueToJson context (some value)).bind
        intro json
        cases json <;> simp

theorem readsOnly_jsValueToFunction :
    ReadsOnly (jsValueToFunction context value) := by
  cases value with
  | none => simp [jsValueToFunction]
  | some value =>
      simp only [jsValueToFunction, jsValueIsUndefined, call_bind, done_bind,
        uses_call, Command.readsOnly, Command.isReader, true_and]
      intro isUndefined
      split
      · simp
      · simp only [jsObjectIsFunction, call_bind, done_bind, uses_call, true_and]
        intro isFunction
        split <;> simp [jibFunctionOfObject]

/-- Readers of one kind of value look whether it is of that kind. -/
theorem looksOnly_ifKind {value : JSValueRef} {test : Operation Bool} {absent : α}
    {convert : Operation α} (tests : LooksOnly test) (converts : LooksOnly convert) :
    LooksOnly (jsValueIsUndefined context value >>= fun isUndefined =>
      if isUndefined then .done absent
      else test >>= fun isKind => if isKind then convert else .done absent) := by
  refine ⟨rfl, fun isUndefined => ?_⟩
  cases isUndefined with
  | true => trivial
  | false =>
      refine tests.bind fun isKind => ?_
      cases isKind with
      | false => trivial
      | true => exact converts

theorem looksOnly_jsValueToDouble : LooksOnly (jsValueToDouble context value) := by
  cases value with
  | none => simp [jsValueToDouble]
  | some value =>
      apply looksOnly_ifKind
      · simp [jsValueIsNumber]
      · simp

theorem looksOnly_jsValueToInt : LooksOnly (jsValueToInt context value) := by
  cases value with
  | none => simp [jsValueToInt]
  | some value =>
      apply looksOnly_ifKind
      · simp [jsValueIsNumber]
      · simp

theorem looksOnly_jsValueToBool : LooksOnly (jsValueToBool context value) := by
  cases value with
  | none => simp [jsValueToBool]
  | some value =>
      apply looksOnly_ifKind
      · simp [jsValueIsBoolean]
      · simp

theorem neutral_jsValueToHitch : Neutral (jsValueToHitch context value) := by
  cases value with
  | none => trivial
  | some value =>
      refine ⟨rfl, fun string => ?_⟩
      exact (looksOnly_jsStringToHitch string).light.neutral.bind fun _ => by simp

theorem neutral_record {α : Type} (jsException : JSValueRef) :
    Neutral (record context jsException : Operation (Option α)) :=
  (neutral_jsValueToHitch context (some jsException)).bind fun _ => by simp

theorem reading_record {α : Type} (jsException : JSValueRef) :
    Reading (record context jsException : Operation (Option α)) :=
  (readsOnly_jsValueToHitch context (some jsException)).reading.bind fun _ => by simp

end Readers

theorem light_halfHitchToJSValue (context : JSGlobalContextRef)
    (value : HalfHitch) : Light (halfHitchToJSValue context value) :=
  uses_jsString (fun _ => rfl) (fun _ => by simp) value

theorem light_createStringJibValue (context : JSGlobalContextRef)
    (string : Option JSStringRef) :
    Light (createStringJibValue context string) := by
  cases string with
  | none => simp [createStringJibValue]
  | some string =>
      simp only [createStringJibValue, jsValueMakeString, call_bind, done_bind,
        uses_call, Command.isLight, true_and]
      intro result
      cases result <;> simp

theorem light_createContextValue (context : JSGlobalContextRef)
    (argument : JibUnknown) : Light (argument.createContextValue context) := by
  have stringValue : ∀ string, Light
      (some <$> createStringJibValue context string) := fun string =>
    (light_createStringJibValue context string).bind fun _ => trivial
  cases argument with
  | jibFunction function =>
      simp only [JibUnknown.createContextValue]
      split <;> simp [← bind_pure_comp]
  | hitchArray hitches =>
      apply (Uses.mapEach (fun _ => light_halfHitchToJSValue context _) hitches).bind
      simp
  | string bytes => exact (light_createJSString _).bind stringValue
  | staticString bytes => exact (light_createJSString _).bind stringValue
  | hitch text => exact (uses_hitchJSString (fun _ => rfl) (fun _ => by simp) text).bind stringValue
  | halfHitch slice => exact (light_createJSString slice).bind stringValue
  | int value => simp [JibUnknown.createContextValue, ← bind_pure_comp]
  | uint value => simp [JibUnknown.createContextValue, ← bind_pure_comp]
  | double value => simp [JibUnknown.createContextValue, ← bind_pure_comp]
  | float value => simp [JibUnknown.createContextValue, ← bind_pure_comp]
  | bool value => simp [JibUnknown.createContextValue, ← bind_pure_comp]

theorem light_createJibValue (argument : JibUnknown) :
    Light (argument.createJibValue jib) := by
  have inContext := light_createContextValue jib.context argument
  cases argument with
  | bool value => trivial
  | _ => exact inContext

theorem light_convertArgument (argument : Option JibUnknown) :
    Light (convertArgument jib argument) := by
  cases argument with
  | none => trivial
  | some argument => exact light_createJibValue jib argument

theorem neutral_callConverted (function : JibFunction) (given : Nat)
    (convertedArgs : List (Option JSValueRef)) :
    Neutral (callConverted jib function given convertedArgs) := by
  unfold callConverted
  split
  · simp
  · simp only [jsObjectCallAsFunction, call_bind, done_bind, uses_call, Command.isNeutral,
      Command.endsLifetime, Bool.not_false, true_and]
    intro called
    split
    · exact neutral_record jib.context _
    · simp

/-- What `call(jsvalue:)` does once it has the lock. -/
theorem neutral_callBody (function : JibFunction) (arguments : List (Option JibUnknown)) :
    Neutral (mapEach (convertArgument jib) arguments >>=
      callConverted jib function arguments.length) := by
  apply Uses.bind
  · exact Uses.mapEach (fun argument => (light_convertArgument jib argument).neutral) arguments
  · exact neutral_callConverted jib function arguments.length

theorem neutral_evalScript (jsScript : JSStringRef) :
    Neutral (evalScript jib jsScript) := by
  simp only [evalScript, jsEvaluateScript, call_bind, done_bind, uses_call,
    Command.isNeutral,
    Command.endsLifetime, Bool.not_false, true_and]
  intro evaluated
  split
  · exact (neutral_record jib.context _).bind fun _ => by simp
  · simp

theorem neutral_evalBody (script : HalfHitch) : Neutral (jsString script (evalScript jib)) :=
  uses_jsString (fun _ => rfl) (neutral_evalScript jib) script

theorem light_definedProperty (string : JSStringRef) :
    Light (definedProperty jib string) := by
  refine ⟨rfl, ?_⟩
  intro value
  cases value with
  | none => trivial
  | some value =>
      refine ⟨rfl, ?_⟩
      intro isUndefined
      cases isUndefined <;> trivial

theorem light_resolveGlobal (hitch : HalfHitch) :
    Light (resolveGlobal jib hitch) := by
  unfold resolveGlobal
  split
  · apply (light_createJSString hitch).bind
    intro string
    cases string with
    | none => simp
    | some string => exact (light_definedProperty jib string).bind fun _ => by simp
  · simp

theorem light_acceptDefined (evaluated : Option JSValueRef × Option JSValueRef) :
    Light (acceptDefined jib evaluated) := by
  unfold acceptDefined
  split
  · simp only [jsValueIsUndefined, call_bind, done_bind, uses_call, Command.isLight,
      Command.looksOnly, Command.readsOnly, Command.isReader, true_and]
    intro isUndefined
    split <;> simp
  · simp

theorem neutral_resolveParenthesized (hitch : HalfHitch) :
    Neutral (resolveParenthesized jib hitch) := by
  refine uses_hitchJSString (fun _ => rfl) (fun jsScript => ?_) _
  simp only [jsEvaluateScript, call_bind, done_bind, uses_call, Command.isNeutral,
    Command.endsLifetime, Bool.not_false, true_and]
  intro evaluated
  exact (light_acceptDefined jib evaluated).neutral.bind fun _ => by simp

theorem neutral_acceptOrRecord
    (evaluated : Option JSValueRef × Option JSValueRef) :
    Neutral (acceptOrRecord jib evaluated) := by
  unfold acceptOrRecord
  split
  · exact neutral_record jib.context _
  · simp

theorem neutral_resolveUnmodified (hitch : HalfHitch) :
    Neutral (resolveUnmodified jib hitch) := by
  refine uses_jsString (fun _ => rfl) (fun jsScript => ?_) _
  simp only [jsEvaluateScript, call_bind, done_bind, uses_call, Command.isNeutral,
    Command.endsLifetime, Bool.not_false, true_and]
  intro evaluated
  exact (neutral_acceptOrRecord jib evaluated).bind fun _ => by simp

theorem neutral_resolveEvaluated (hitch : HalfHitch) :
    Neutral (resolveEvaluated jib hitch) := by
  apply (neutral_resolveParenthesized jib hitch).bind
  intro parenthesized
  cases parenthesized with
  | some value => simp
  | none =>
      apply (neutral_resolveUnmodified jib hitch).bind
      intro unmodified
      cases unmodified <;> simp

theorem neutral_resolve (hitch : HalfHitch) : Neutral (resolve jib hitch) := by
  simp only [resolve, setException, call_bind, done_bind, uses_call, Command.isNeutral,
    Command.endsLifetime, Bool.not_false, true_and]
  intro _
  apply (light_resolveGlobal jib hitch).neutral.bind
  intro value
  cases value with
  | some value => simp
  | none => exact neutral_resolveEvaluated jib hitch

theorem lockFree_deinit (function : JibFunction) : LockFree function.deinit := by
  simp only [JibFunction.deinit, makeReleasedClass, jsClassRelease, loadJib, call_bind,
    done_bind, uses_call, Command.endsLifetime, true_and]
  intro _ _ jib
  cases jib with
  | none => simp
  | some jib =>
      simp only [readReleased, call_bind, done_bind, uses_call, true_and]
      intro released
      split <;> simp

theorem lockFree_makeJibFunction (name : HalfHitch) (body : JibFunctionBody) :
    LockFree (makeJibFunction jib name body) := by
  simp only [makeJibFunction, jsClassCreate, makeRetainedPtr, call_bind, done_bind,
    uses_call, Command.endsLifetime, true_and]
  intro jsClass bodyPtr
  apply (light_createJSString name).neutral.lockFree.bind
  intro functionName
  simp only [jsObjectMakeFunctionWithCallback, call_bind, done_bind, uses_call,
    Command.endsLifetime, true_and]
  intro objectRef
  cases objectRef with
  | some objectRef => simp
  | none =>
      simp only [jsStringRelease, call_bind, done_bind, uses_call, true_and]
      intro _
      exact (lockFree_deinit _).bind fun _ => by simp

/-! ## The shape of the operations -/

/-- A test of `released`, a body under the lock, and then commands without it.
Without a value there are none. -/
def Shaped {α : Type} (program : Operation α) : Prop :=
  ∃ (β : Type) (absent : β) (body : Operation β) (rest : β → Operation α),
    LockFree body ∧ (∀ value, LockFree (rest value)) ∧
      (∃ value, rest absent = .done value) ∧
        program = unlessReleased absent (locked body) >>= rest

theorem Shaped.map {α β : Type} {program : Operation α} (shaped : Shaped program)
    (function : α → β) : Shaped (program >>= fun value => .done (function value)) := by
  obtain ⟨γ, absent, body, rest, free, restFree, ⟨value, restAbsent⟩, rfl⟩ := shaped
  refine ⟨γ, absent, body, fun value => rest value >>= fun value => .done (function value),
    free, ?_, ⟨function value, ?_⟩, bind_assoc _ _ _⟩
  · intro value
    exact (restFree value).bind fun _ => trivial
  · change rest absent >>= _ = _
    rw [restAbsent, done_bind]

theorem shaped_unlessReleased {α : Type} (absent : α) {body : Operation α}
    (free : LockFree body) : Shaped (unlessReleased absent (locked body)) :=
  ⟨α, absent, body, .done, free, fun _ => trivial, ⟨absent, rfl⟩, (bind_pure _).symm⟩

theorem shaped_typedCall {α : Type} {convert : Option JSValueRef → Operation α}
    (reading : ∀ value, Reading (convert value))
    (convertNone : ∃ value, convert none = .done value) (function : JibFunction)
    (arguments : List (Option JibUnknown)) :
    Shaped (typedCall jib convert function arguments) := by
  refine ⟨_, none, _, convert, ?_, fun value => (reading value).lockFree, convertNone, rfl⟩
  exact (neutral_callBody jib function arguments).lockFree

theorem shaped_typedSubscript {α : Type} (absent : α)
    {convert : Option JSValueRef → Operation α}
    (reading : ∀ value, Reading (convert value)) (exec : HalfHitch) :
    Shaped (typedSubscript jib absent convert exec) :=
  shaped_unlessReleased absent ((neutral_resolve jib exec).lockFree.bind fun value =>
    (reading value).lockFree)

theorem shaped_eval (script : HalfHitch) : Shaped (eval jib script) :=
  shaped_unlessReleased none (neutral_evalBody jib script).lockFree

/-- What `set(global:value:)` does once it has the lock. -/
theorem exists_neutral_setGlobalValue (name : HalfHitch) (value : JSValueRef) :
    ∃ body, Neutral body ∧ setGlobalValue jib name value = unlessReleased none (locked body) := by
  refine ⟨_, ?_, rfl⟩
  apply (light_createJSString name).neutral.bind
  intro string
  refine ⟨rfl, fun exception => ?_⟩
  cases exception with
  | none => exact ⟨rfl, fun _ => trivial⟩
  | some jsException =>
      exact (neutral_record jib.context jsException).bind fun _ => ⟨rfl, fun _ => trivial⟩

theorem shaped_setGlobalValue (name : HalfHitch) (value : JSValueRef) :
    Shaped (setGlobalValue jib name value) := by
  obtain ⟨body, neutral, isBody⟩ := exists_neutral_setGlobalValue jib name value
  rw [isBody]
  exact shaped_unlessReleased none neutral.lockFree

theorem shaped_newFunction (name : HalfHitch) (body : JibFunctionBody) :
    Shaped (newFunction jib name body) := by
  refine shaped_unlessReleased none ((lockFree_makeJibFunction jib name body).bind ?_)
  intro function
  cases function <;> simp

/-- How a reader works: a conversion and the reply made of what it gives.
`absent` is what a released `Jib` gives. -/
structure Conversion (reader : Reader D) (α : Type) (absent : α)
    (convert : Option JSValueRef → Operation α) (wrap : α → Reply D) : Prop where
  readsOnly : ∀ value, ReadsOnly (convert value)
  passes : ∀ Own Callable value, OwnOption Own value →
    Passes jib.context Own Callable (fun converted => (wrap converted).Found Own)
      (convert value)
  absent_functions : (wrap absent).functions = []
  absent_isNil : (wrap absent).isNil = true
  convert_none : convert none = .done absent
  subscript : ∀ exec,
    reader.subscript jib exec =
      (typedSubscript jib absent convert exec >>= fun value => .done (wrap value))
  call : ∀ function arguments,
    reader.call jib function arguments =
      (typedCall jib convert function arguments >>= fun value => .done (wrap value))

theorem Conversion.reading {jib : JibFields} {reader : Reader D} {α : Type} {absent : α}
    {convert : Option JSValueRef → Operation α} {wrap : α → Reply D}
    (conversion : Conversion jib reader α absent convert wrap) (value : Option JSValueRef) :
    Reading (convert value) :=
  (conversion.readsOnly value).reading

theorem Passes.found {α : Type} {Own Callable : JSValueRef → Prop} {jib : JibFields}
    {wrap : α → Reply D} {program : Operation α}
    (passes : Passes jib.context Own Callable (fun _ => True) program)
    (empty : ∀ converted, (wrap converted).functions = []) :
    Passes jib.context Own Callable (fun converted => (wrap converted).Found Own) program :=
  passes.mono fun converted _ _ => by simp [Reply.Found, empty]

theorem Reader.conversion (reader : Reader D) :
    ∃ α absent convert wrap, Conversion jib reader α absent convert wrap := by
  have hitch := readsOnly_jsValueToHitch jib.context
  cases reader with
  | decoded decode =>
      exact ⟨_, _, _, .decoded,
        fun value => (looksOnly_jsValueToDecodable jib.context value decode).readsOnly,
        fun _ _ _ own => (passes_jsValueToDecodable own decode).found fun _ => rfl, rfl,
        rfl, rfl, fun _ => rfl, fun _ _ => rfl⟩
  | function =>
      refine ⟨_, _, _, .function,
        readsOnly_jsValueToFunction jib.context, ?_, rfl,
        rfl, rfl, fun _ => rfl, fun _ _ => rfl⟩
      intro Own Callable value own
      apply (passes_jsValueToFunction own).mono
      intro made _ found function member
      exact found function (by simpa [Reply.functions] using member)
  | hitch =>
      exact ⟨_, _, _, .text, hitch,
        fun _ _ _ own => (passes_jsValueToHitch own).found fun _ => rfl, rfl,
        rfl, rfl, fun _ => rfl, fun _ _ => rfl⟩
  | halfhitch =>
      exact ⟨_, _, _, .text, hitch,
        fun _ _ _ own => (passes_jsValueToHitch own).found fun _ => rfl, rfl,
        rfl, rfl, fun _ => rfl, fun _ _ => rfl⟩
  | string =>
      exact ⟨_, _, _, .text, hitch,
        fun _ _ _ own => (passes_jsValueToHitch own).found fun _ => rfl, rfl,
        rfl, rfl, fun _ => rfl, fun _ _ => rfl⟩
  | date parse =>
      exact ⟨_, none, _, fun text => .decoded (text.bind parse), hitch,
        fun _ _ _ own => (passes_jsValueToHitch own).found fun _ => rfl, rfl,
        rfl, rfl, fun _ => bind_assoc _ _ _, fun _ _ => bind_assoc _ _ _⟩
  | double =>
      exact ⟨_, _, _, .double, fun value => (looksOnly_jsValueToDouble jib.context value).readsOnly,
        fun _ _ _ own => (passes_jsValueToDouble own).found fun _ => rfl, rfl,
        rfl, rfl, fun _ => rfl, fun _ _ => rfl⟩
  | int =>
      exact ⟨_, _, _, .int, fun value => (looksOnly_jsValueToInt jib.context value).readsOnly,
        fun _ _ _ own => (passes_jsValueToInt own).found fun _ => rfl, rfl,
        rfl, rfl, fun _ => rfl, fun _ _ => rfl⟩
  | bool =>
      exact ⟨_, _, _, .bool, fun value => (looksOnly_jsValueToBool jib.context value).readsOnly,
        fun _ _ _ own => (passes_jsValueToBool own).found fun _ => rfl, rfl,
        rfl, rfl, fun _ => rfl, fun _ _ => rfl⟩
  | json =>
      exact ⟨_, _, _, .text, fun value => (looksOnly_jsValueToJson jib.context value).readsOnly,
        fun _ _ _ own => (passes_jsValueToJson own).found fun _ => rfl, rfl,
        rfl, rfl, fun _ => rfl, fun _ _ => rfl⟩

/-- Every public operation has that shape. -/
theorem PublicOperation.shaped_program (operation : PublicOperation D) :
    Shaped (operation.program jib) := by
  cases operation with
  | eval script => exact (shaped_eval jib script).map _
  | setGlobalValue name value => exact (shaped_setGlobalValue jib name value).map _
  | setGlobal name value => exact (shaped_setGlobalValue jib name _).map _
  | newFunction name body => exact (shaped_newFunction jib name body).map _
  | garbageCollect =>
      have collect : LockFree (jsGarbageCollect jib.context) := by simp
      exact (shaped_unlessReleased () collect).map _
  | subscript reader exec =>
      obtain ⟨_, absent, _, _, conversion⟩ := reader.conversion jib
      rw [program, conversion.subscript]
      exact (shaped_typedSubscript jib absent conversion.reading exec).map _
  | call reader function arguments =>
      obtain ⟨_, _, _, _, conversion⟩ := reader.conversion jib
      rw [program, conversion.call]
      exact (shaped_typedCall jib conversion.reading ⟨_, conversion.convert_none⟩ _ _).map _
  | callNone function arguments =>
      have callNone : Shaped (JSC.callNone jib function arguments) :=
        shaped_typedCall jib (fun _ => by simp) ⟨false, rfl⟩ function arguments
      exact callNone.map _

/-- Every operation but the one that makes functions passes on what it is
given and what the engine answers. -/
theorem PublicOperation.passes {jib : JibFields} {Own Callable : JSValueRef → Prop}
    (ownJib : ∀ value ∈ jib.values, Own value)
    {operation : PublicOperation D} (own : ∀ value ∈ operation.values, Own value)
    (notNew : ∀ name body, operation ≠ .newFunction name body) :
    Passes jib.context Own Callable (fun reply => reply.Found Own)
      (operation.program jib) := by
  cases operation with
  | eval script =>
      have evaluated : Passes jib.context Own Callable (fun _ => True) (JSC.eval jib script) :=
        passes_unlessReleased trivial (passes_jsString script trivial passes_evalScript)
      exact evaluated.bind fun success _ => passes_done (by simp [Reply.Found, Reply.functions])
  | setGlobalValue name value =>
      have owned : Own value := own value (by simp [PublicOperation.values])
      exact (passes_setGlobalValue ownJib name owned).bind fun success _ =>
        passes_done (by simp [Reply.Found, Reply.functions])
  | setGlobal name value =>
      have owned : Own (value.objectRef.getD jib.undefined) := by
        cases isObject : value.objectRef with
        | none => exact ownJib _ (by simp [JibFields.values])
        | some object => exact own object (by simp [PublicOperation.values, isObject])
      exact (passes_setGlobalValue ownJib name owned).bind fun success _ =>
        passes_done (by simp [Reply.Found, Reply.functions])
  | newFunction name body => exact (notNew name body rfl).elim
  | garbageCollect =>
      have collected : Passes jib.context Own Callable (fun _ => True) (JSC.garbageCollect jib) :=
        passes_unlessReleased trivial
          (passes_call rfl (by simp [Command.context?]) (by simp) fun _ _ => trivial)
      exact collected.bind fun _ _ => passes_done (by simp [Reply.Found, Reply.functions])
  | subscript reader exec =>
      obtain ⟨_, absent, convert, wrap, conversion⟩ := reader.conversion jib
      rw [program, conversion.subscript]
      have converted : Passes jib.context Own Callable
          (fun converted => (wrap converted).Found Own)
          (typedSubscript jib absent convert exec) :=
        passes_unlessReleased (by simp [Reply.Found, conversion.absent_functions])
          ((passes_resolve ownJib exec).bind (conversion.passes Own Callable))
      exact converted.bind fun value owned => passes_done owned
  | call reader function arguments =>
      obtain ⟨_, absent, convert, wrap, conversion⟩ := reader.conversion jib
      rw [program, conversion.call]
      obtain ⟨ownFunction, ownGiven⟩ := List.forall_mem_append.mp own
      have called : Passes jib.context Own Callable (OwnOption Own)
          (callJSValue jib function arguments) :=
        passes_callJSValue ownJib (by simpa [OwnOption] using ownFunction)
          (ownArguments ownGiven)
      have converted : Passes jib.context Own Callable
          (fun converted => (wrap converted).Found Own)
          (typedCall jib convert function arguments) := called.bind (conversion.passes Own Callable)
      exact converted.bind fun value owned => passes_done owned
  | callNone function arguments =>
      obtain ⟨ownFunction, ownGiven⟩ := List.forall_mem_append.mp own
      have called : Passes jib.context Own Callable (OwnOption Own)
          (callJSValue jib function arguments) :=
        passes_callJSValue ownJib (by simpa [OwnOption] using ownFunction)
          (ownArguments ownGiven)
      have converted : Passes jib.context Own Callable (fun _ => True)
          (JSC.callNone jib function arguments) := called.bind fun _ _ => trivial
      exact converted.bind fun _ _ => passes_done (by simp [Reply.Found, Reply.functions])

end Jib.JSC
