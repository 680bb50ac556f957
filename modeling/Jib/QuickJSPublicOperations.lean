import Jib.ExclusiveThreads
import Jib.QuickJSReferences

/-!
# The public operations of the QuickJS backend

What a thread can ask of a `Jib` and the program that serves it.  Every
operation does all of its work between one acquisition of the lock and one
release, whatever the engine answers.
-/

namespace Jib.QuickJS

open BinaryNumbers CommandProgram Program

variable {D : Type}

/-- The types at which calls and subscripts read their value.  `D` is what the
decoders and the date parser produce. -/
inductive Reader (D : Type)
  | decoded (decode : Bytes → Option D)
  | function
  | hitch
  | halfhitch
  | string
  | date (parse : Bytes → Option D)
  | double
  | int
  | bool
  | json

/-- What an operation returns. -/
inductive Reply (D : Type)
  | nothing
  | success (value : Option Bool)
  | decoded (value : Option D)
  | function (value : Option JibFunction)
  | text (value : Option Bytes)
  | double (value : Option Binary64)
  | int (value : Option Int)
  | bool (value : Option Bool)

inductive PublicOperation (D : Type)
  | eval (script : HalfHitch)
  | setGlobal (name : HalfHitch) (value : JSValue)
  | setGlobalFunction (name : HalfHitch) (value : JibFunction)
  | newFunction (name : HalfHitch) (body : JibFunctionBody)
  | garbageCollect
  | subscript (reader : Reader D) (exec : HalfHitch)
  | call (reader : Reader D) (function : JibFunction)
      (arguments : List (Option JibUnknown))
  | callNone (function : JibFunction) (arguments : List (Option JibUnknown))

/-- The functions that an operation returns. -/
def Reply.functions : Reply D → List JibFunction
  | .function value => value.toList
  | _ => []

def Reply.isNil : Reply D → Bool
  | .nothing => false
  | .success value => value.isNone
  | .decoded value => value.isNone
  | .function value => value.isNone
  | .text value => value.isNone
  | .double value => value.isNone
  | .int value => value.isNone
  | .bool value => value.isNone

def Reader.subscript (exec : HalfHitch) : Reader D → Operation (Reply D)
  | .decoded decode => return .decoded (← subscriptDecoded decode exec)
  | .function => return .function (← subscriptFunction exec)
  | .hitch => return .text (← subscriptHitch exec)
  | .halfhitch => return .text (← subscriptHalfhitch exec)
  | .string => return .text (← subscriptString exec)
  | .date parse => return .decoded (← subscriptDate parse exec)
  | .double => return .double (← subscriptDouble exec)
  | .int => return .int (← subscriptInt exec)
  | .bool => return .bool (← subscriptBool exec)
  | .json => return .text (← subscriptJson exec)

def Reader.call (function : JibFunction) (arguments : List (Option JibUnknown)) :
    Reader D → Operation (Reply D)
  | .decoded decode => return .decoded (← callDecoded decode function arguments)
  | .function => return .function (← callFunction function arguments)
  | .hitch => return .text (← callHitch function arguments)
  | .halfhitch => return .text (← callHalfhitch function arguments)
  | .string => return .text (← callString function arguments)
  | .date parse => return .decoded (← callDate parse function arguments)
  | .double => return .double (← callDouble function arguments)
  | .int => return .int (← callInt function arguments)
  | .bool => return .bool (← callBool function arguments)
  | .json => return .text (← callJson function arguments)

/-- The program of each operation.  `global` is the field of `Jib`. -/
def PublicOperation.program (global : JSValue) :
    PublicOperation D → Operation (Reply D)
  | .eval script => return .success (← QuickJS.eval script)
  | .setGlobal name value => return .success (← QuickJS.setGlobal global name value)
  | .setGlobalFunction name value =>
      return .success (← QuickJS.setGlobalFunction global name value)
  | .newFunction name body => return .function (← QuickJS.newFunction name body)
  | .garbageCollect => do
      QuickJS.garbageCollect
      return .nothing
  | .subscript reader exec => reader.subscript exec
  | .call reader function arguments => reader.call function arguments
  | .callNone function arguments =>
      return .success (← QuickJS.callNone function arguments)

/-! ## What the bodies of the operations use -/

/-- Engine calls other than fetching the pending exception. -/
@[simp]
def Command.isPlain : Command → Bool
  | .jsGetException => false
  | .setException _ => false
  | .appendCustomFunction _ => false
  | .makeRetainedPtr _ => false
  | _ => true

/-- The engine calls that readers make. -/
@[simp]
def Command.isReader : Command → Bool
  | .jsFreeValue _ => true
  | .jsDupValue _ => true
  | .jsToCString _ => true
  | .jsFreeCString _ => true
  | .jsJSONStringify .. => true
  | .jsIsFunction _ => true
  | .jsToFloat64 _ => true
  | .jsToInt64 _ => true
  | .jsToBool _ => true
  | _ => false

/-- Plain engine calls that run no script, function or setter that they are
given. -/
@[simp]
def Command.isQuiet : Command → Bool
  | .jsEval .. => false
  | .jsCall .. => false
  | .jsSetProperty .. => false
  | command => command.isPlain

/-- Only the calls of readers. -/
abbrev Reading {α : Type} (program : Operation α) : Prop :=
  program.Uses fun command : Command => command.isReader = true

/-- Only quiet engine calls. -/
abbrev Quiet {α : Type} (program : Operation α) : Prop :=
  program.Uses fun command : Command => command.isQuiet = true

/-- Only plain engine calls. -/
abbrev Plain {α : Type} (program : Operation α) : Prop :=
  program.Uses fun command : Command => command.isPlain = true

/-- Any commands, but not the lock. -/
abbrev LockFree {α : Type} (program : Operation α) : Prop :=
  program.Uses fun _ => True

theorem Plain.lockFree {α : Type} {program : Operation α}
    (plain : Plain program) : LockFree program :=
  Uses.mono plain fun _ _ => trivial

theorem Reading.quiet {α : Type} {program : Operation α}
    (reading : Reading program) : Quiet program :=
  Uses.mono reading fun command isReader => by
    cases command <;> first | rfl | cases isReader

theorem Quiet.plain {α : Type} {program : Operation α}
    (quiet : Quiet program) : Plain program :=
  Uses.mono quiet fun command isQuiet => by
    cases command <;> first | rfl | cases isQuiet

theorem Reading.plain {α : Type} {program : Operation α}
    (reading : Reading program) : Plain program :=
  reading.quiet.plain

theorem reading_exceptionHitch (exceptionValue : JSValue) :
    Reading (exceptionHitch exceptionValue) := by
  simp only [exceptionHitch, jsToCString, call_bind, done_bind, uses_call]
  refine ⟨rfl, ?_⟩
  intro utf8
  cases utf8 <;> simp

theorem lockFree_recordException : LockFree recordException := by
  simp only [recordException, jsGetException, call_bind, done_bind, uses_call, true_and]
  intro exceptionValue
  exact (reading_exceptionHitch exceptionValue).plain.lockFree.bind fun _ => by simp

theorem lockFree_recordIf (value : JSValue) : LockFree (recordIf value) := by
  unfold recordIf
  split
  · exact lockFree_recordException
  · simp

theorem reading_hitchOfCString (value : JSValue) : Reading (hitchOfCString value) := by
  simp only [hitchOfCString, jsToCString, call_bind, done_bind, uses_call]
  refine ⟨rfl, ?_⟩
  intro utf8
  cases utf8 <;> simp

theorem reading_jsValueToJson (value : JSValue) : Reading (jsValueToJson value) := by
  unfold jsValueToJson
  split
  · simp
  · simp only [jsJSONStringify, call_bind, done_bind, uses_call]
    refine ⟨rfl, ?_⟩
    intro json
    exact (reading_hitchOfCString json).bind fun hitch => by simp

theorem reading_jsValueToHitch (value : JSValue) : Reading (jsValueToHitch value) := by
  unfold jsValueToHitch
  split
  · simp
  · exact reading_hitchOfCString value

theorem reading_jsValueToDecodable (decode : Bytes → Option D) (value : JSValue) :
    Reading (jsValueToDecodable decode value) := by
  unfold jsValueToDecodable
  split
  · simp
  · apply (reading_jsValueToJson value).bind
    intro json
    cases json <;> simp

theorem reading_jsValueToFunction (value : JSValue) :
    Reading (jsValueToFunction value) := by
  unfold jsValueToFunction
  split
  · simp
  · simp only [jsIsFunction, call_bind, done_bind, uses_call]
    refine ⟨rfl, ?_⟩
    intro isFunction
    cases isFunction <;> simp

theorem reading_jsValueToDouble (value : JSValue) :
    Reading (jsValueToDouble value) := by
  unfold jsValueToDouble
  split_ifs <;> simp

theorem reading_jsValueToInt (value : JSValue) : Reading (jsValueToInt value) := by
  unfold jsValueToInt
  split_ifs <;> simp

theorem reading_jsValueToBool (value : JSValue) : Reading (jsValueToBool value) := by
  unfold jsValueToBool
  split_ifs <;> simp

theorem quiet_createArrayJibValue (hitches : List Bytes) :
    Quiet (createArrayJibValue hitches) := by
  apply (Uses.mapEach (fun _ => by simp) hitches).bind
  intro arguments
  simp only [jsNewArray, jsArrayPush, call_bind, done_bind, uses_call]
  refine ⟨rfl, fun array => ⟨rfl, fun pushed => ?_⟩⟩
  exact (Uses.forEach (fun _ => by simp) arguments).bind fun _ => by simp

theorem quiet_createJibValue (argument : JibUnknown) :
    Quiet argument.createJibValue := by
  cases argument with
  | hitchArray hitches => exact quiet_createArrayJibValue hitches
  | _ => simp [JibUnknown.createJibValue]

theorem quiet_convertArgument (argument : Option JibUnknown) :
    Quiet (convertArgument argument) := by
  cases argument with
  | none => simp [convertArgument]
  | some argument => exact quiet_createJibValue argument

theorem lockFree_checkConverted (given converted : Nat) :
    LockFree (checkConverted given converted) := by
  unfold checkConverted
  split <;> simp

theorem lockFree_callConverted (function : JibFunction)
    (convertedArgs : List JSValue) :
    LockFree (callConverted function convertedArgs) := by
  simp only [callConverted, jsCall, call_bind, done_bind, uses_call, true_and]
  intro result
  apply (Uses.forEach (fun _ => by simp) convertedArgs).bind
  intro _
  apply (lockFree_recordIf result).bind
  intro recorded
  cases recorded <;> simp

theorem lockFree_callJSValue (function : JibFunction)
    (arguments : List (Option JibUnknown)) :
    LockFree (callJSValue function arguments) := by
  apply (Plain.lockFree (Quiet.plain (Uses.mapEach quiet_convertArgument arguments))).bind
  intro convertedArgs
  apply (lockFree_checkConverted _ _).bind
  intro _
  exact lockFree_callConverted function convertedArgs

theorem plain_evalScript (script : HalfHitch) : Plain (evalScript script) := by
  unfold evalScript
  split <;> simp

theorem plain_resolve (hitch : HalfHitch) : Plain (resolve hitch) := by
  apply (plain_evalScript _).bind
  intro modifiedValue
  cases modifiedValue with
  | none => exact plain_evalScript _
  | some modifiedValue =>
      simp only
      split
      · exact plain_evalScript _
      · simp

theorem lockFree_assignGlobal (global : JSValue) (atom : Atom) (value : JSValue) :
    LockFree (assignGlobal global atom value) := by
  simp only [assignGlobal, jsSetProperty, call_bind, done_bind, uses_call, true_and]
  intro assigned
  cases assigned with
  | true => simp
  | false => simpa using lockFree_recordException

/-! ## Every operation is guarded -/

theorem guarded_typedCall {α : Type} {convert : JSValue → Operation (Option α)}
    (reading : ∀ value, Reading (convert value)) (function : JibFunction)
    (arguments : List (Option JibUnknown)) :
    (typedCall convert function arguments).Guarded := by
  refine Uses.guarded_locked ((lockFree_callJSValue function arguments).bind ?_)
  intro jsValue
  cases jsValue with
  | none => simp
  | some jsValue => exact (reading jsValue).plain.lockFree.bind fun _ => by simp

theorem guarded_typedSubscript {α : Type}
    {convert : JSValue → Operation (Option α)}
    (reading : ∀ value, Reading (convert value)) (exec : HalfHitch) :
    (typedSubscript convert exec).Guarded := by
  refine Uses.guarded_locked ((plain_resolve exec).bind ?_)
  intro value
  cases value with
  | none => simp
  | some value => exact (reading value).plain.bind fun _ => by simp

theorem guarded_eval (script : HalfHitch) : (eval script).Guarded := by
  refine Uses.guarded_locked ((plain_evalScript _).lockFree.bind ?_)
  intro result
  cases result with
  | none => simp
  | some result =>
      apply (lockFree_recordIf result).bind
      intro recorded
      cases recorded <;> simp

theorem guarded_setGlobal (global : JSValue) (name : HalfHitch)
    (value : JSValue) : (setGlobal global name value).Guarded := by
  have body : LockFree (do
      let atom ← jsNewAtom (cString (name.raw.getD []))
      let result ← assignGlobal global atom value
      jsFreeAtom atom
      return result) := by
    simp only [jsNewAtom, call_bind, done_bind, uses_call, true_and]
    intro atom
    exact (lockFree_assignGlobal global atom value).bind fun _ => by simp
  exact body.guarded_locked

theorem guarded_newFunction (name : HalfHitch) (body : JibFunctionBody) :
    (newFunction name body).Guarded :=
  have body : LockFree (do
      let function ← makeJibFunction name body
      appendCustomFunction function
      return some function) := by
    simp [makeJibFunction]
  body.guarded_locked

/-- Looked up functions have no bodies, and own all that is left. -/
def Obtained (functions : List JibFunction) (left : References) : Prop :=
  (∀ function ∈ functions, function.bodyPtr = none) ∧
    left = functionReferences functions

theorem obtained_nil : Obtained [] 0 :=
  ⟨by simp, rfl⟩

/-- How a reader works: a conversion that only makes the calls of readers, and
the reply made of what it gives. -/
structure Conversion (reader : Reader D) (α : Type)
    (convert : JSValue → Operation (Option α)) (wrap : Option α → Reply D) :
    Prop where
  reading : ∀ value, Reading (convert value)
  balances : ∀ value, Balances 0 (fun result => Obtained (wrap result).functions)
    (convert value)
  absent_functions : (wrap none).functions = []
  absent_isNil : (wrap none).isNil = true
  subscript : ∀ exec,
    reader.subscript exec =
      (typedSubscript convert exec >>= fun value => .done (wrap value))
  call : ∀ function arguments,
    reader.call function arguments =
      (typedCall convert function arguments >>= fun value => .done (wrap value))

theorem Reader.conversion (reader : Reader D) :
    ∃ α convert wrap, Conversion reader α convert wrap := by
  have plain {α : Type} {convert : JSValue → Operation (Option α)}
      {wrap : Option α → Reply D} (spends : ∀ value, Balances 0 Spent (convert value))
      (noFunctions : ∀ result, (wrap result).functions = []) (value : JSValue) :
      Balances 0 (fun result => Obtained (wrap result).functions) (convert value) := by
    apply (spends value).mono
    rintro result _ rfl
    rw [noFunctions]
    exact obtained_nil
  cases reader with
  | decoded decode =>
      exact ⟨_, _, .decoded, reading_jsValueToDecodable decode,
        plain (balances_jsValueToDecodable decode) fun _ => rfl, rfl, rfl,
        fun _ => rfl, fun _ _ => rfl⟩
  | function =>
      exact ⟨_, _, .function, reading_jsValueToFunction,
        fun value => (balances_jsValueToFunction value).mono fun _ _ holds =>
          ⟨by simpa [Reply.functions] using holds.1, holds.2⟩, rfl, rfl,
        fun _ => rfl, fun _ _ => rfl⟩
  | hitch =>
      exact ⟨_, _, .text, reading_jsValueToHitch,
        plain balances_jsValueToHitch fun _ => rfl, rfl, rfl, fun _ => rfl, fun _ _ => rfl⟩
  | halfhitch =>
      exact ⟨_, _, .text, reading_jsValueToHitch,
        plain balances_jsValueToHitch fun _ => rfl, rfl, rfl, fun _ => rfl, fun _ _ => rfl⟩
  | string =>
      exact ⟨_, _, .text, reading_jsValueToHitch,
        plain balances_jsValueToHitch fun _ => rfl, rfl, rfl, fun _ => rfl, fun _ _ => rfl⟩
  | date parse =>
      exact ⟨_, _, fun text => .decoded (text.bind parse), reading_jsValueToHitch,
        plain balances_jsValueToHitch fun _ => rfl, rfl, rfl,
        fun _ => bind_assoc _ _ _, fun _ _ => bind_assoc _ _ _⟩
  | double =>
      exact ⟨_, _, .double, reading_jsValueToDouble,
        plain balances_jsValueToDouble fun _ => rfl, rfl, rfl, fun _ => rfl, fun _ _ => rfl⟩
  | int =>
      exact ⟨_, _, .int, reading_jsValueToInt,
        plain balances_jsValueToInt fun _ => rfl, rfl, rfl, fun _ => rfl, fun _ _ => rfl⟩
  | bool =>
      exact ⟨_, _, .bool, reading_jsValueToBool,
        plain balances_jsValueToBool fun _ => rfl, rfl, rfl, fun _ => rfl, fun _ _ => rfl⟩
  | json =>
      exact ⟨_, _, .text, reading_jsValueToJson,
        plain balances_jsValueToJson fun _ => rfl, rfl, rfl, fun _ => rfl, fun _ _ => rfl⟩

/-- Every public operation does all its work under the lock. -/
theorem PublicOperation.guarded_program (global : JSValue)
    (operation : PublicOperation D) : (operation.program global).Guarded := by
  cases operation with
  | eval script => exact (guarded_eval script).map _
  | setGlobal name value => exact (guarded_setGlobal global name value).map _
  | setGlobalFunction name value =>
      exact (guarded_setGlobal global name value.functionValueRef).map _
  | newFunction name body => exact (guarded_newFunction name body).map _
  | garbageCollect =>
      have collect : LockFree jsRunGC := by simp
      exact collect.guarded_locked.map _
  | subscript reader exec =>
      obtain ⟨_, _, _, conversion⟩ := reader.conversion
      rw [program, conversion.subscript]
      exact (guarded_typedSubscript conversion.reading exec).map _
  | call reader function arguments =>
      obtain ⟨_, _, _, conversion⟩ := reader.conversion
      rw [program, conversion.call]
      exact (guarded_typedCall conversion.reading function arguments).map _
  | callNone function arguments =>
      have callNone : (QuickJS.callNone function arguments).Guarded :=
        guarded_typedCall (fun _ => by simp) function arguments
      exact callNone.map _

/-! ## Every operation balances -/

/-- The values that an operation sets globals to. -/
def PublicOperation.registers : PublicOperation D → List JSValue
  | .setGlobal _ value => [value]
  | .setGlobalFunction _ value => [value.functionValueRef]
  | _ => []

theorem balances_reply {α : Type} {held : References} {program : Operation α}
    {post : α → References → Prop} (balances : Balances held post program)
    (reply : α → Reply D) {final : Reply D → References → Prop}
    (implies : ∀ value left, post value left → final (reply value) left) :
    Balances held final (program >>= fun value => .done (reply value)) :=
  balances.seq fun value left holds => balances_done (implies value left holds)

/-- A function that is made has a body, and one of its references is left. -/
theorem PublicOperation.balances_newFunction (global : JSValue) (name : HalfHitch)
    (body : JibFunctionBody) :
    Balances 0
      (fun reply left => (∀ function ∈ reply.functions, function.bodyPtr ≠ none) ∧
        left = functionReferences reply.functions)
      ((PublicOperation.newFunction name body : PublicOperation D).program global) :=
  balances_reply (QuickJS.balances_newFunction name body) _ fun _ _ holds =>
    ⟨by simpa [Reply.functions] using holds.1, holds.2⟩

/-- Operations take the references that they register and leave those of the
functions that they return. -/
theorem PublicOperation.balances (global : JSValue) (operation : PublicOperation D)
    (notNew : ∀ name body, operation ≠ .newFunction name body) :
    Balances (valueReferences operation.registers)
      (fun reply => Obtained reply.functions) (operation.program global) := by
  have spent {α : Type} (value : α) (left : References) (isSpent : Spent value left) :
      Obtained [] left := by
    rw [isSpent]
    exact obtained_nil
  cases operation with
  | eval script => exact balances_reply (balances_eval script) _ spent
  | setGlobal name value =>
      have set := balances_setGlobal global name value
      rw [← add_zero value.references] at set
      exact balances_reply set _ spent
  | setGlobalFunction name value =>
      have set := balances_setGlobal global name value.functionValueRef
      rw [← add_zero value.functionValueRef.references] at set
      exact balances_reply set _ spent
  | newFunction name body => exact (notNew name body rfl).elim
  | garbageCollect =>
      apply balances_garbageCollect.seq
      rintro _ _ rfl
      exact balances_done obtained_nil
  | subscript reader exec =>
      obtain ⟨_, _, _, conversion⟩ := reader.conversion
      rw [program, conversion.subscript]
      refine balances_reply (balances_typedSubscript conversion.balances ?_ exec) _
        fun _ _ holds => holds
      rw [conversion.absent_functions]
      exact obtained_nil
  | call reader function arguments =>
      obtain ⟨_, _, _, conversion⟩ := reader.conversion
      rw [program, conversion.call]
      refine balances_reply (balances_typedCall conversion.balances ?_ function arguments) _
        fun _ _ holds => holds
      rw [conversion.absent_functions]
      exact obtained_nil
  | callNone function arguments =>
      have callNone : Balances 0 Spent (QuickJS.callNone function arguments) :=
        balances_typedCall (fun _ => balances_done rfl) rfl function arguments
      exact balances_reply callNone _ spent

end Jib.QuickJS
