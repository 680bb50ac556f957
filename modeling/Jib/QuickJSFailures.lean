import Jib.Failures
import Jib.QuickJSPublicOperations

/-!
# Failures in the QuickJS backend

A function of the engine that throws leaves the thrown value with the engine
and answers with the exception tag.  Calls, evaluations and assignments fetch
it; lookups only pass the tag on to their reader.
-/

namespace Jib.QuickJS

open BinaryNumbers CommandProgram Program

variable {D : Type} {α : Type}

abbrev Failing := Failure JSValue

/-- What the engine calls make of the last failure.  The readers of the engine
give nothing for the exception tag, and the string conversion of what was
thrown gives its text. -/
def throwing : Effect interface Failing
  | .jsEval .., before, answer, after => before.Ran after answer.isException
  | .jsCall .., before, answer, after => before.Ran after answer.isException
  | .jsSetProperty .., before, answer, after => before.Ran after !answer
  | .jsGetException, before, answer, after =>
      after = before ∧ ∀ thrown ∈ before.thrown, answer = thrown.1
  | .jsToCString value, before, answer, after =>
      after = before ∧ (value = .exception → answer = none) ∧
        ∀ thrown ∈ before.thrown, value = thrown.1 → answer = thrown.2
  | .jsJSONStringify value _ _, before, answer, after =>
      after = before ∧ (value = .exception → answer = .exception)
  | .jsIsFunction value, before, answer, after =>
      after = before ∧ (value = .exception → answer = false)
  | .setException text, before, _, after => after = { before with exception := some text }
  | _, before, _, after => after = before

/-- Every end of the program meets `post`. -/
abbrev Ensures (post : α → Failing → Prop) (program : Operation α) (state : Failing) : Prop :=
  program.Satisfies throwing (fun _ _ => True) post state

theorem ensures_quiet {program : Operation α} (quiet : Quiet program) (state : Failing) :
    Ensures (fun _ after => after = state) program state := by
  refine Uses.satisfies quiet ?_ rfl
  rintro command isQuiet _ rfl
  refine ⟨trivial, ?_⟩
  intro answer after moves
  cases command <;> first | exact Bool.noConfusion isQuiet | exact moves | exact moves.1

/-! ## Recording -/

/-- What is recorded of a thrown value with this text. -/
def recordedText (text : Option Bytes) : Bytes :=
  (text.map cString).getD unknownException

/-- After a recording the field tells of the value that was thrown. -/
def Recorded (failure : Failing) : Prop :=
  ∀ thrown ∈ failure.thrown, failure.exception = some (recordedText thrown.2)

theorem ensures_recordException {state : Failing} {thrown : JSValue × Option Bytes}
    (threw : state.thrown = some thrown) :
    Ensures (fun reply after => reply = none ∧
        after = ⟨some thrown, some (recordedText thrown.2)⟩)
      recordException state := by
  refine ⟨trivial, ?_⟩
  rintro exceptionValue _ ⟨rfl, isThrown⟩
  obtain rfl := isThrown thrown threw
  refine ⟨trivial, ?_⟩
  rintro utf8 _ ⟨rfl, _, isText⟩
  obtain rfl := isText thrown threw rfl
  cases hasText : thrown.2 with
  | none =>
      refine ⟨trivial, ?_⟩
      rintro _ _ rfl
      refine ⟨trivial, ?_⟩
      rintro _ _ rfl
      exact ⟨rfl, by simp [threw, recordedText]⟩
  | some utf8 =>
      refine ⟨trivial, ?_⟩
      rintro _ _ rfl
      refine ⟨trivial, ?_⟩
      rintro _ _ rfl
      refine ⟨trivial, ?_⟩
      rintro _ _ rfl
      exact ⟨rfl, by simp [threw, recordedText]⟩

/-- How a run ends: the reply says whether something was thrown, and then it
has been recorded. -/
def Reported (reply : Option α) (after : Failing) : Prop :=
  (reply = none ↔ after.thrown.isSome = true) ∧ Recorded after

theorem ensures_recordIf {state : Failing} {value : JSValue}
    (ran : state.thrown.isSome = value.isException) :
    Ensures Reported (recordIf value) state := by
  unfold recordIf
  split
  · rename_i isException
    rw [isException] at ran
    obtain ⟨thrown, threw⟩ := Option.isSome_iff_exists.mp ran
    apply (ensures_recordException threw).mono
    rintro reply after ⟨rfl, rfl⟩
    simp [Reported, Recorded]
  · rename_i noException
    have nothing : state.thrown = none := by
      simpa [Bool.eq_false_iff.mpr noException] using ran
    simp [Reported, Recorded, nothing]

/-! ## Calls, evaluations and assignments -/

theorem ensures_callConverted (function : JibFunction) (convertedArgs : List JSValue)
    (state : Failing) :
    Ensures Reported (callConverted function convertedArgs) state := by
  refine ⟨trivial, ?_⟩
  rintro result ran ⟨_, threw⟩
  have frees : Quiet (forEach jsFreeValue convertedArgs) :=
    Uses.forEach (fun _ => by simp) convertedArgs
  change Ensures Reported (forEach jsFreeValue convertedArgs >>= fun _ => _) ran
  refine Satisfies.bind ((ensures_quiet frees ran).mono ?_)
  rintro _ _ rfl
  refine Satisfies.bind ((ensures_recordIf threw).mono ?_)
  rintro recorded after ⟨isNone, isRecorded⟩
  cases recorded with
  | none => exact ⟨⟨fun _ => isNone.mp rfl, fun _ => rfl⟩, isRecorded⟩
  | some _ => exact ⟨by simpa using isNone, isRecorded⟩

theorem ensures_callJSValue (function : JibFunction)
    (arguments : List (Option JibUnknown)) (state : Failing) :
    Ensures Reported (callJSValue function arguments) state := by
  refine Satisfies.bind
    ((ensures_quiet (Uses.mapEach quiet_convertArgument arguments) state).mono ?_)
  intro convertedArgs converted _
  refine Satisfies.bind (?_ : Ensures _ (checkConverted _ _) converted)
  unfold checkConverted
  split
  · exact ensures_callConverted function convertedArgs converted
  · exact ⟨trivial, fun _ after _ => ensures_callConverted function convertedArgs after⟩

/-- What a typed call and a typed subscript make of a failure. -/
def GivesNothing (reply : Option α) (after : Failing) : Prop :=
  after.thrown.isSome = true → reply = none

theorem ensures_typedCall {convert : JSValue → Operation (Option α)}
    (reading : ∀ value, Reading (convert value)) (function : JibFunction)
    (arguments : List (Option JibUnknown)) (state : Failing) :
    Ensures (fun reply after => GivesNothing reply after ∧ Recorded after)
      (typedCall convert function arguments) state := by
  refine Satisfies.locked (Satisfies.bind
    ((ensures_callJSValue function arguments state).mono ?_))
  rintro jsValue called ⟨isNone, isRecorded⟩
  cases jsValue with
  | none => exact ⟨fun _ => rfl, isRecorded⟩
  | some jsValue =>
      have nothing : called.thrown = none := by simpa using isNone
      refine Satisfies.bind ((ensures_quiet (reading jsValue).quiet called).mono ?_)
      rintro retValue _ rfl
      refine ⟨trivial, ?_⟩
      rintro _ _ rfl
      exact ⟨by simp [GivesNothing, nothing], isRecorded⟩

theorem ensures_callNone (function : JibFunction) (arguments : List (Option JibUnknown))
    (state : Failing) : Ensures Reported (callNone function arguments) state := by
  refine Satisfies.locked (Satisfies.bind
    ((ensures_callJSValue function arguments state).mono ?_))
  rintro jsValue called ⟨isNone, isRecorded⟩
  cases jsValue with
  | none => exact ⟨⟨fun _ => isNone.mp rfl, fun _ => rfl⟩, isRecorded⟩
  | some jsValue =>
      refine ⟨trivial, ?_⟩
      rintro _ _ rfl
      exact ⟨by simpa using isNone, isRecorded⟩

/-- A script that is evaluated gives the exception tag when it throws. -/
theorem ensures_evalScript (script : HalfHitch) (state : Failing) :
    Ensures (fun result after => after.exception = state.exception ∧
        (if script.raw.isSome then
          ∃ value, result = some value ∧ after.thrown.isSome = value.isException
        else result = none ∧ after = state))
      (evalScript script) state := by
  unfold evalScript
  cases hasMemory : script.raw with
  | none => exact ⟨rfl, by simp⟩
  | some memory =>
      refine ⟨trivial, ?_⟩
      rintro result after ⟨kept, threw⟩
      exact ⟨kept, by simpa using threw⟩

theorem ensures_eval (script : HalfHitch) {state : Failing} (fresh : state.thrown = none) :
    Ensures (fun reply after =>
        (script.raw.isSome = true → (reply = none ↔ after.thrown.isSome = true)) ∧
          Recorded after)
      (eval script) state := by
  refine Satisfies.locked (Satisfies.bind ((ensures_evalScript _ state).mono ?_))
  rintro result ran ⟨_, ends⟩
  rw [HalfHitch.isSome_raw_nullTerminated] at ends
  split at ends
  · obtain ⟨value, rfl, threw⟩ := ends
    refine Satisfies.bind ((ensures_recordIf threw).mono ?_)
    rintro recorded after ⟨isNone, isRecorded⟩
    refine ⟨trivial, ?_⟩
    rintro _ _ rfl
    cases recorded with
    | none => exact ⟨fun _ => isNone, isRecorded⟩
    | some _ => exact ⟨fun _ => by simpa using isNone, isRecorded⟩
  · rename_i noMemory
    obtain ⟨rfl, rfl⟩ := ends
    exact ⟨fun hasMemory => absurd hasMemory noMemory, by simp [Recorded, fresh]⟩

theorem ensures_setGlobal (global : JSValue) (name : HalfHitch) (value : JSValue)
    (state : Failing) : Ensures Reported (setGlobal global name value) state := by
  refine ⟨trivial, ?_⟩
  rintro atom _ rfl
  refine ⟨trivial, ?_⟩
  rintro assigned ran ⟨_, threw⟩
  cases assigned with
  | true =>
      have nothing : ran.thrown = none := by simpa using threw
      refine ⟨trivial, ?_⟩
      rintro _ _ rfl
      exact ⟨by simp [nothing], by simp [Recorded, nothing]⟩
  | false =>
      obtain ⟨thrown, isThrown⟩ := Option.isSome_iff_exists.mp threw
      refine Satisfies.bind (Satisfies.bind ((ensures_recordException isThrown).mono ?_))
      rintro recorded _ ⟨rfl, rfl⟩
      refine ⟨trivial, ?_⟩
      rintro _ _ rfl
      exact ⟨by simp, by simp [Recorded]⟩

/-! ## Lookups -/

/-- A lookup records nothing; what it passes on is the exception tag exactly
when the text it evaluated last threw. -/
theorem ensures_resolve (hitch : HalfHitch) (state : Failing) :
    Ensures (fun result after => after.exception = state.exception ∧
        ∀ value ∈ result, after.thrown.isSome = value.isException)
      (resolve hitch) state := by
  refine Satisfies.bind ((ensures_evalScript _ state).mono ?_)
  rintro modifiedValue ran ⟨kept, ends⟩
  have unmodified : Ensures (fun result after => after.exception = state.exception ∧
      ∀ value ∈ result, after.thrown.isSome = value.isException)
      (evalScript hitch.nullTerminated) ran := by
    apply (ensures_evalScript _ ran).mono
    rintro result after ⟨keptOn, ends⟩
    refine ⟨keptOn.trans kept, ?_⟩
    intro value isResult
    split at ends
    · obtain ⟨evaluated, rfl, threw⟩ := ends
      obtain rfl : evaluated = value := by simpa using isResult
      exact threw
    · simp [ends.1] at isResult
  cases modifiedValue with
  | none => exact unmodified
  | some modifiedValue =>
      have threw : ran.thrown.isSome = modifiedValue.isException := by
        simpa [Hitch.parenthesized, HalfHitch.ofBytes] using ends
      dsimp only
      split
      · exact unmodified
      · exact ⟨kept, by simpa using threw⟩

theorem ensures_typedSubscript {convert : JSValue → Operation (Option α)}
    (reading : ∀ value, Reading (convert value))
    (failing : ∀ state, Ensures (fun reply _ => reply = none) (convert .exception) state)
    (exec : HalfHitch) (state : Failing) :
    Ensures (fun reply after => GivesNothing reply after ∧
        after.exception = state.exception)
      (typedSubscript convert exec) state := by
  refine Satisfies.locked (Satisfies.bind ((ensures_resolve exec state).mono ?_))
  rintro value resolved ⟨kept, threw⟩
  cases value with
  | none => exact ⟨fun _ => rfl, kept⟩
  | some value =>
      have ends : Ensures (fun reply after => after = resolved ∧
          (value.isException = true → reply = none)) (convert value) resolved := by
        cases value with
        | exception =>
            exact (Satisfies.and (ensures_quiet (reading _).quiet resolved)
              (failing resolved)).mono fun _ _ both => ⟨both.1, fun _ => both.2⟩
        | _ =>
            exact (ensures_quiet (reading _).quiet resolved).mono fun _ _ same =>
              ⟨same, nofun⟩
      refine Satisfies.bind (ends.mono ?_)
      rintro converted _ ⟨rfl, nothing⟩
      refine ⟨trivial, ?_⟩
      rintro _ _ rfl
      exact ⟨fun isThrown => nothing (threw value rfl ▸ isThrown), kept⟩

/-! ## Readers of the exception tag -/

section Exception

variable (state : Failing)

theorem ensures_hitchOfCString_exception :
    Ensures (fun reply _ => reply = none) (hitchOfCString .exception) state := by
  refine ⟨trivial, ?_⟩
  rintro utf8 _ ⟨rfl, isNone, _⟩
  obtain rfl := isNone rfl
  exact rfl

theorem ensures_jsValueToHitch_exception :
    Ensures (fun reply _ => reply = none) (jsValueToHitch .exception) state :=
  ensures_hitchOfCString_exception state

theorem ensures_jsValueToJson_exception :
    Ensures (fun reply _ => reply = none) (jsValueToJson .exception) state := by
  refine ⟨trivial, ?_⟩
  rintro json _ ⟨rfl, isException⟩
  obtain rfl := isException rfl
  change Ensures _ (hitchOfCString .exception >>= fun _ => _) _
  refine Satisfies.bind ((ensures_hitchOfCString_exception _).mono ?_)
  rintro _ after rfl
  exact ⟨trivial, fun _ _ _ => rfl⟩

theorem ensures_jsValueToDecodable_exception (decode : Bytes → Option D) :
    Ensures (fun reply _ => reply = none) (jsValueToDecodable decode .exception) state := by
  refine Satisfies.bind ((ensures_jsValueToJson_exception state).mono ?_)
  rintro _ after rfl
  exact rfl

theorem ensures_jsValueToFunction_exception :
    Ensures (fun reply _ => reply = none) (jsValueToFunction .exception) state := by
  refine ⟨trivial, ?_⟩
  rintro isFunction _ ⟨rfl, notFunction⟩
  obtain rfl := notFunction rfl
  exact rfl

end Exception

/-! ## Public operations -/

namespace PublicOperation

/-- The script that the operation is given. -/
def script? : PublicOperation D → Option HalfHitch
  | .eval script => some script
  | .subscript _ exec => some exec
  | _ => none

def isSubscript : PublicOperation D → Bool
  | .subscript .. => true
  | _ => false

/-- The reply only tells whether the operation has succeeded. -/
def tellsSuccess : PublicOperation D → Bool
  | .eval _ => true
  | .setGlobal .. => true
  | .setGlobalFunction .. => true
  | .callNone .. => true
  | _ => false

/-- What the script, function or setter of the operation threw.  Without memory
behind it there is no script, and a lookup only evaluates the parentheses. -/
def thrown (operation : PublicOperation D) (after : Failing) : Option (JSValue × Option Bytes) :=
  match operation.script? with
  | some script => if script.raw.isSome then after.thrown else none
  | none => after.thrown

end PublicOperation

/-- How a reader works where a script throws: its conversion gives nothing for
the exception tag. -/
structure Reader.ReadsException (reader : Reader D) (α : Type)
    (convert : JSValue → Operation (Option α)) (wrap : Option α → Reply D) : Prop where
  reading : ∀ value, Reading (convert value)
  failing : ∀ state, Ensures (fun reply _ => reply = none) (convert .exception) state
  isNil : (wrap none).isNil = true
  subscript : ∀ exec,
    reader.subscript exec = (typedSubscript convert exec >>= fun value => .done (wrap value))

theorem Reader.readsException (reader : Reader D) :
    ∃ α convert wrap, reader.ReadsException α convert wrap := by
  cases reader with
  | decoded decode =>
      exact ⟨_, _, .decoded, reading_jsValueToDecodable decode,
        fun state => ensures_jsValueToDecodable_exception state decode, rfl, fun _ => rfl⟩
  | function =>
      exact ⟨_, _, .function, reading_jsValueToFunction, ensures_jsValueToFunction_exception,
        rfl, fun _ => rfl⟩
  | hitch =>
      exact ⟨_, _, .text, reading_jsValueToHitch, ensures_jsValueToHitch_exception, rfl,
        fun _ => rfl⟩
  | halfhitch =>
      exact ⟨_, _, .text, reading_jsValueToHitch, ensures_jsValueToHitch_exception, rfl,
        fun _ => rfl⟩
  | string =>
      exact ⟨_, _, .text, reading_jsValueToHitch, ensures_jsValueToHitch_exception, rfl,
        fun _ => rfl⟩
  | date parse =>
      exact ⟨_, _, fun text => .decoded (text.bind parse), reading_jsValueToHitch,
        ensures_jsValueToHitch_exception, rfl, fun _ => bind_assoc _ _ _⟩
  | double => exact ⟨_, _, .double, reading_jsValueToDouble, fun _ => rfl, rfl, fun _ => rfl⟩
  | int => exact ⟨_, _, .int, reading_jsValueToInt, fun _ => rfl, rfl, fun _ => rfl⟩
  | bool => exact ⟨_, _, .bool, reading_jsValueToBool, fun _ => rfl, rfl, fun _ => rfl⟩
  | json =>
      exact ⟨_, _, .text, reading_jsValueToJson, ensures_jsValueToJson_exception, rfl,
        fun _ => rfl⟩

/-- A typed subscript gives `nil` when its script throws. -/
theorem Reader.ensures_subscript (reader : Reader D) (exec : HalfHitch) (state : Failing) :
    Ensures (fun reply after =>
        (after.thrown.isSome = true → reply.isNil = true) ∧ after.exception = state.exception)
      (reader.subscript exec) state := by
  obtain ⟨_, convert, wrap, reads⟩ := reader.readsException
  rw [reads.subscript]
  refine Satisfies.bind ((ensures_typedSubscript reads.reading reads.failing exec state).mono ?_)
  rintro reply after ⟨givesNothing, kept⟩
  refine ⟨?_, kept⟩
  intro threw
  rw [givesNothing threw, reads.isNil]

/-- A typed call gives `nil` when the function throws, and records what it
throws. -/
theorem Reader.ensures_call (reader : Reader D) (function : JibFunction)
    (arguments : List (Option JibUnknown)) (state : Failing) :
    Ensures (fun reply after =>
        (after.thrown.isSome = true → reply.isNil = true) ∧ Recorded after)
      (reader.call function arguments) state := by
  obtain ⟨_, _, wrap, conversion⟩ := reader.conversion
  rw [conversion.call]
  refine Satisfies.bind
    ((ensures_typedCall conversion.reading function arguments state).mono ?_)
  rintro reply after ⟨givesNothing, isRecorded⟩
  refine ⟨?_, isRecorded⟩
  intro threw
  rw [givesNothing threw, conversion.absent_isNil]

namespace PublicOperation

/-- What the operation makes of a failure: it signals it, and unless it is a
lookup it records it. -/
structure Ends (operation : PublicOperation D) (before : Failing) (reply : Reply D)
    (after : Failing) : Prop where
  signals : (∀ script ∈ operation.script?, script.bytes ≠ []) →
    SignalsFailure (operation.thrown after).isSome reply.isNil operation.tellsSuccess
  kept : operation.isSubscript = true → after.exception = before.exception
  recorded : operation.isSubscript = false → Recorded after

theorem ends_of_reported {operation : PublicOperation D} {before after : Failing}
    {value : Option Bool} (reported : Reported value after)
    (thrown : operation.thrown after = after.thrown)
    (notSubscript : operation.isSubscript = false) :
    operation.Ends before (.success value) after where
  signals := by
    intro _
    rw [thrown]
    constructor
    · intro threw
      simp [Reply.isNil, reported.1.mpr threw]
    · intro _ isNil
      exact reported.1.mp (by simpa [Reply.isNil] using isNil)
  kept := by simp [notSubscript]
  recorded := fun _ => reported.2

theorem ensures_program (global : JSValue) (operation : PublicOperation D)
    (before : Failing) :
    Ensures (operation.Ends before) (operation.program global) before.enter := by
  cases operation with
  | eval script =>
      refine Satisfies.bind ((ensures_eval script rfl).mono ?_)
      rintro reply after ⟨tells, recorded⟩
      refine ⟨?_, nofun, fun _ => recorded⟩
      intro nonEmpty
      have hasMemory := HalfHitch.isSome_raw_of_bytes_ne_nil (nonEmpty script rfl)
      have thrown : (eval script : PublicOperation D).thrown after = after.thrown := by
        simp [PublicOperation.thrown, script?, hasMemory]
      have ends : PublicOperation.Ends (eval script) before (.success reply) after :=
        ends_of_reported ⟨tells hasMemory, recorded⟩ thrown rfl
      exact ends.signals nonEmpty
  | setGlobal name value =>
      refine Satisfies.bind ((ensures_setGlobal global name value _).mono ?_)
      exact fun reply after reported => ends_of_reported reported rfl rfl
  | setGlobalFunction name value =>
      refine Satisfies.bind ((ensures_setGlobal global name value.functionValueRef _).mono ?_)
      exact fun reply after reported => ends_of_reported reported rfl rfl
  | newFunction name body =>
      have keeps : Ensures (fun _ after => after = before.enter)
          (QuickJS.newFunction name body) before.enter := by
        refine ⟨trivial, ?_⟩
        rintro _ _ rfl
        refine ⟨trivial, ?_⟩
        rintro _ _ rfl
        refine ⟨trivial, ?_⟩
        rintro _ _ rfl
        exact ⟨trivial, fun _ _ same => same⟩
      refine Satisfies.bind (keeps.mono ?_)
      rintro reply _ rfl
      exact ⟨fun _ => .of_success nofun, nofun, fun _ => by simp [Recorded]⟩
  | garbageCollect =>
      refine ⟨trivial, ?_⟩
      rintro _ _ rfl
      exact ⟨fun _ => .of_success nofun, nofun, fun _ => by simp [Recorded]⟩
  | subscript reader exec =>
      apply (reader.ensures_subscript exec before.enter).mono
      rintro reply after ⟨isNil, kept⟩
      refine ⟨?_, fun _ => kept, nofun⟩
      intro nonEmpty
      have hasMemory := HalfHitch.isSome_raw_of_bytes_ne_nil (nonEmpty exec rfl)
      exact ⟨by simpa [PublicOperation.thrown, script?, hasMemory] using isNil, nofun⟩
  | call reader function arguments =>
      apply (reader.ensures_call function arguments before.enter).mono
      rintro reply after ⟨isNil, recorded⟩
      exact ⟨fun _ => ⟨isNil, nofun⟩, nofun, fun _ => recorded⟩
  | callNone function arguments =>
      refine Satisfies.bind ((ensures_callNone function arguments _).mono ?_)
      exact fun reply after reported => ends_of_reported reported rfl rfl

end PublicOperation

/-! ## An engine whose scripts throw -/

/-- `"Error"`. -/
def errorText : Bytes := "Error".toUTF8.toList

/-- Everything that runs throws the object 1. -/
def errorHandle : Handler interface Failing
  | .jsEval .., state => (.exception, ⟨some (.object 1, some errorText), state.exception⟩)
  | .jsCall .., state => (.exception, ⟨some (.object 1, some errorText), state.exception⟩)
  | .jsSetProperty .., state => (false, ⟨some (.object 1, some errorText), state.exception⟩)
  | .jsGetException, state => (.object 1, state)
  | .jsToCString value, state => (if value = .exception then none else some errorText, state)
  | .jsJSONStringify value _ _, state => (value, state)
  | .setException text, state => ((), { state with exception := some text })
  | command, state => (constantAnswer .undefined command, state)

/-- What was thrown is the object 1. -/
def ThrewError (state : Failing) : Prop :=
  ∀ thrown ∈ state.thrown, thrown = (.object 1, some errorText)

theorem errorHandle_follows (command : Command) {state : Failing} (threw : ThrewError state) :
    throwing command state (errorHandle command state).1 (errorHandle command state).2 ∧
      ThrewError (errorHandle command state).2 := by
  have error : ∀ exception, ThrewError ⟨some (.object 1, some errorText), exception⟩ := by
    simp [ThrewError]
  cases command with
  | jsEval => exact ⟨⟨rfl, rfl⟩, error _⟩
  | jsCall => exact ⟨⟨rfl, rfl⟩, error _⟩
  | jsSetProperty => exact ⟨⟨rfl, rfl⟩, error _⟩
  | jsGetException =>
      refine ⟨⟨rfl, ?_⟩, threw⟩
      intro thrown isThrown
      rw [threw thrown isThrown]
      rfl
  | jsToCString value =>
      refine ⟨⟨rfl, ?_, ?_⟩, threw⟩
      · rintro rfl
        rfl
      · rintro thrown isThrown rfl
        rw [threw thrown isThrown]
        rfl
  | jsJSONStringify value => exact ⟨⟨rfl, id⟩, threw⟩
  | jsIsFunction => exact ⟨⟨rfl, fun _ => rfl⟩, threw⟩
  | setException => exact ⟨rfl, threw⟩
  | _ => exact ⟨rfl, threw⟩

end Jib.QuickJS
