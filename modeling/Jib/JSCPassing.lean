import Mathlib.Data.List.Forall2
import Jib.JSCPublicOperations
import Jib.PassedValues

/-!
# The values that JavaScriptCore hands to a script

Every converted argument is a reference to a value that the engine has just
made, to a value that a `Jib` or a `JibFunction` has, or a `NULL`.
-/

namespace Jib.JSC

open BinaryNumbers CommandProgram Program UnicodeText

variable {F State : Type}

/-! ## What the engine does -/

/-- The engine functions that convert arguments, and the test of `released`
before them. -/
def Command.isPassing : Command → Bool
  | .readReleased => true
  | .jsStringCreateWithUTF8CString _ => true
  | .jsStringRelease _ => true
  | .jsValueMakeUndefined _ => true
  | .jsValueMakeBoolean .. => true
  | .jsValueMakeNumber .. => true
  | .jsValueMakeString .. => true
  | .jsObjectMakeArray .. => true
  | _ => false

/-- What is received of a reference; `none` is a `NULL`. -/
def receivedOf (contentOf : State → JSValueRef → Option (Content F)) (state : State)
    (value : Option JSValueRef) : Option (Content F) :=
  value.bind (contentOf state)

/-- The string behind an element, if it is one. -/
def elementUnits (contentOf : State → JSValueRef → Option (Content F)) (state : State)
    (value : Option JSValueRef) : Option (List UInt16) :=
  (receivedOf contentOf state value).bind Content.units?

/-- The engine makes values and keeps them until they are handed over.  What it
makes of an array with a `NULL` is only known not to be a string there. -/
structure PassesValues (handle : Handler interface State)
    (contentOf : State → JSValueRef → Option (Content F)) (context : JSGlobalContextRef) :
    Prop where
  keeps : ∀ command state value content, command.isPassing = true →
    contentOf state value = some content →
      contentOf (handle command state).2 value = some content
  createString : MakesStrings handle
  makeString : ∀ string state, ∃ value units,
    (handle (.jsValueMakeString context string) state).1 = some value ∧
      contentOf (handle (.jsValueMakeString context string) state).2 value =
        some (.string units) ∧
      ∀ text, string.text = utf8 text → units = utf16 text
  makeUndefined : ∀ state, contentOf (handle (.jsValueMakeUndefined context) state).2
    (handle (.jsValueMakeUndefined context) state).1 = some .undefined
  makeBoolean : ∀ boolean state, contentOf (handle (.jsValueMakeBoolean context boolean) state).2
    (handle (.jsValueMakeBoolean context boolean) state).1 = some (.boolean boolean)
  makeNumber : ∀ number state, contentOf (handle (.jsValueMakeNumber context number) state).2
    (handle (.jsValueMakeNumber context number) state).1 = some (.number (jsNumber number))
  makeArray : ∀ values state, (∀ value ∈ values, value.isSome = true) → ∃ array,
    (handle (.jsObjectMakeArray context values) state).1 = some array ∧
      contentOf (handle (.jsObjectMakeArray context values) state).2 array =
        some (.array (values.map (elementUnits contentOf state)))
  madeArray : ∀ values state array,
    (handle (.jsObjectMakeArray context values) state).1 = some array → ∃ content,
      contentOf (handle (.jsObjectMakeArray context values) state).2 array = some content ∧
        ∀ elements, content = .array elements →
          elements = values.map (elementUnits contentOf state)

variable {handle : Handler interface State}
  {contentOf : State → JSValueRef → Option (Content F)} {context : JSGlobalContextRef}

/-- A reference is a `NULL`, or there is a value behind it. -/
def Held (contentOf : State → JSValueRef → Option (Content F)) (state : State)
    (value : Option JSValueRef) : Prop :=
  ∀ reference ∈ value, (contentOf state reference).isSome = true

/-- The functions among arguments are those that a `JibFunction` has. -/
def Wraps (contentOf : State → JSValueRef → Option (Content F))
    (arguments : List (Option (SwiftArgument F))) (state : State) : Prop :=
  ∀ identity other wrapper, some (.function identity other wrapper) ∈ arguments →
    ∃ object, wrapper.objectRef = some object ∧
      contentOf state object = some (.function identity)

/-- The booleans that a `Jib` has. -/
structure HasBooleans (contentOf : State → JSValueRef → Option (Content F)) (jib : JibFields)
    (state : State) : Prop where
  trueValue : contentOf state jib.trueValue = some (.boolean true)
  falseValue : contentOf state jib.falseValue = some (.boolean false)

/-- Only what converts arguments. -/
abbrev Passing {α : Type} (program : Operation α) : Prop :=
  program.Uses fun command : Command => command.isPassing = true

theorem held_none {state : State} : Held contentOf state none := by
  simp [Held]

/-- A value with something behind it is received as that. -/
theorem held_some {value : JSValueRef} {state : State} {content : Content F}
    (isContent : contentOf state value = some content) :
    Held contentOf state (some value) ∧ receivedOf contentOf state (some value) = some content := by
  refine ⟨?_, isContent⟩
  rintro _ ⟨⟩
  rw [isContent]
  rfl

theorem passing_halfHitchToJSValue (context : JSGlobalContextRef) (value : HalfHitch) :
    Passing (halfHitchToJSValue context value) := by
  apply uses_jsString
  · exact fun _ => rfl
  · exact fun _ => ⟨rfl, fun _ => ⟨rfl, fun _ => trivial⟩⟩

theorem passing_createStringJibValue (string : Option JSStringRef) :
    Passing (createStringJibValue context string) := by
  cases string with
  | none => exact ⟨rfl, fun _ => trivial⟩
  | some string =>
      refine ⟨rfl, fun value => ?_⟩
      cases value with
      | none => exact ⟨rfl, fun _ => trivial⟩
      | some value => exact ⟨rfl, fun _ => trivial⟩

theorem passing_createContextValue (argument : JibUnknown) :
    Passing (argument.createContextValue context) := by
  have strings : ∀ string, Passing (some <$> createStringJibValue context string) :=
    fun string => (passing_createStringJibValue string).bind fun _ => trivial
  have created : ∀ value : HalfHitch, Passing (createJSString value) := by
    apply uses_jsString
    · exact fun _ => rfl
    · exact fun _ => trivial
  cases argument with
  | jibFunction function =>
      simp only [JibUnknown.createContextValue]
      split
      · trivial
      · exact ⟨rfl, fun _ => trivial⟩
  | hitchArray hitches =>
      refine Uses.bind ?_ fun arguments => ⟨rfl, fun _ => trivial⟩
      exact Uses.mapEach (fun hitch => passing_halfHitchToJSValue _ hitch.halfhitch) hitches
  | string bytes => exact (created (.ofBytes bytes)).bind strings
  | staticString bytes => exact (created (.ofBytes bytes)).bind strings
  | hitch text =>
      refine Uses.bind ?_ strings
      apply uses_hitchJSString
      · exact fun _ => rfl
      · exact fun _ => trivial
  | halfHitch slice => exact (created slice).bind strings
  | _ => exact ⟨rfl, fun _ => trivial⟩

theorem passing_convertArgument (jib : JibFields) (argument : Option JibUnknown) :
    Passing (convertArgument jib argument) := by
  cases argument with
  | none => trivial
  | some argument =>
      simp only [convertArgument, JibUnknown.createJibValue]
      split
      · trivial
      · exact passing_createContextValue _

section

variable (passes : PassesValues handle contentOf context)
include passes

theorem contentOf_run {α : Type} {program : Operation α} (passing : Passing program)
    {state : State} {value : JSValueRef} {content : Content F}
    (isContent : contentOf state value = some content) :
    contentOf (program.run handle state).2 value = some content :=
  passing.run_keeps (fun command state isPassing => passes.keeps command state value content
    isPassing) isContent

theorem receivedOf_run {α : Type} {program : Operation α} (passing : Passing program)
    {state : State} {value : Option JSValueRef} (held : Held contentOf state value) :
    receivedOf contentOf (program.run handle state).2 value = receivedOf contentOf state value ∧
      Held contentOf (program.run handle state).2 value := by
  cases value with
  | none => exact ⟨rfl, held_none⟩
  | some reference =>
      obtain ⟨content, isContent⟩ := Option.isSome_iff_exists.mp (held reference rfl)
      have still := contentOf_run passes passing isContent
      refine ⟨still.trans isContent.symm, ?_⟩
      rintro _ ⟨⟩
      rw [still]
      rfl

/-- A value is made of a string, and `undefined` of none. -/
theorem run_createStringJibValue (string : Option JSStringRef) (state : State) :
    ∃ content,
      contentOf ((createStringJibValue context string).run handle state).2
          ((createStringJibValue context string).run handle state).1 = some content ∧
        (string = none → content = .undefined) ∧
        ∀ given text, string = some given → given.text = utf8 text →
          content = .string (utf16 text) := by
  cases string with
  | none => exact ⟨_, passes.makeUndefined state, fun _ => rfl, by simp⟩
  | some string =>
      obtain ⟨value, units, isMade, isString, isText⟩ := passes.makeString string state
      have runs : (createStringJibValue context (some string)).run handle state =
          (value, (handle (.jsStringRelease (some string))
            (handle (.jsValueMakeString context string) state).2).2) := by
        simp only [createStringJibValue, jsValueMakeString, call_bind, done_bind, run_call, isMade,
          jsStringRelease, pure_eq_done, run_done]
      rw [runs]
      refine ⟨_, passes.keeps _ _ _ _ rfl isString, by simp, ?_⟩
      rintro given text ⟨⟩ isGiven
      rw [isText text isGiven]

/-- The string of a text that is cut off at a NUL. -/
theorem created_cString {bytes : Bytes} {text : List Char} (isText : bytes = utf8 text)
    (state : State) : ∃ pointer,
      (handle (.jsStringCreateWithUTF8CString (cString bytes)) state).1 =
        some ⟨pointer, utf8 (text.takeWhile (·.toNat ≠ 0))⟩ := by
  have cut : cString bytes = utf8 (text.takeWhile (·.toNat ≠ 0)) := by
    rw [isText, cString, takeWhile_utf8]
  obtain ⟨pointer, created⟩ := passes.createString (text.takeWhile (·.toNat ≠ 0)) state
  exact ⟨pointer, by rw [cut, created]⟩

/-- What a script gets of a string. -/
theorem run_sourceString (source : StringSource) (state : State) :
    let made := (sourceString source >>= fun string =>
      some <$> createStringJibValue context string).run handle state
    Held contentOf made.2 made.1 ∧ ReceivesText source (receivedOf contentOf made.2 made.1) := by
  have runs : (sourceString source >>= fun string =>
      some <$> createStringJibValue context string).run handle state =
        (some ((createStringJibValue context ((sourceString source).run handle state).1).run handle
            ((sourceString source).run handle state).2).1,
          ((createStringJibValue context ((sourceString source).run handle state).1).run handle
            ((sourceString source).run handle state).2).2) := by
    simp [map_eq_pure_bind, pure_eq_done]
  obtain ⟨content, isContent, absent, isString⟩ := run_createStringJibValue passes
    ((sourceString source).run handle state).1 ((sourceString source).run handle state).2
  intro made
  have isMade : made = _ := runs
  rw [isMade]
  refine ⟨?_, ?_, ?_⟩
  · rintro _ ⟨⟩
    rw [isContent]
    rfl
  · intro hasMemory text isText
    obtain ⟨pointer, created⟩ := created_cString passes isText state
    refine isContent.trans (congrArg some (isString ⟨pointer, _⟩ _ ?_ rfl))
    rw [sourceString_of_hasMemory hasMemory]
    exact created
  · intro noMemory
    refine isContent.trans (congrArg some (absent ?_))
    rw [sourceString_of_not_hasMemory noMemory]
    rfl

/-- What an array gets of a `Hitch`. -/
theorem run_halfHitchToJSValue (hitch : Hitch) (state : State) :
    let made := (halfHitchToJSValue context hitch.halfhitch).run handle state
    Held contentOf made.2 made.1 ∧
      ReceivesElement hitch (elementUnits contentOf made.2 made.1) := by
  intro made
  cases isMemory : hitch.raw with
  | none =>
      have isNone : made = (none, state) := by
        simp [made, halfHitchToJSValue, jsString, Hitch.halfhitch, isMemory, pure_eq_done]
      rw [isNone]
      exact ⟨held_none, fun hasMemory => by simp [isMemory] at hasMemory, fun _ => rfl⟩
  | some memory =>
      have hasMemory : hitch.halfhitch.raw.isSome = true := by simp [Hitch.halfhitch, isMemory]
      have created := fun text (isText : hitch.halfhitch.bytes = utf8 text) =>
        created_cString passes isText state
      have isMade : made = (halfHitchToJSValue context hitch.halfhitch).run handle state := rfl
      rw [halfHitchToJSValue, jsString_eq hasMemory, withJSString] at isMade
      simp only [jsStringCreateWithUTF8CString, call_bind, done_bind, run_call] at isMade
      cases isString : (handle (.jsStringCreateWithUTF8CString
          (cString hitch.halfhitch.bytes)) state).1 with
      | none =>
          rw [isString] at isMade
          rw [isMade]
          refine ⟨held_none, ?_, by simp [isMemory]⟩
          intro _ text isText
          obtain ⟨pointer, isCreated⟩ := created text isText
          rw [isString] at isCreated
          cases isCreated
      | some string =>
          obtain ⟨value, units, isValue, isContent, isUnits⟩ := passes.makeString string
            (handle (.jsStringCreateWithUTF8CString (cString hitch.halfhitch.bytes)) state).2
          simp only [isString, jsValueMakeString, jsStringRelease, call_bind, done_bind, run_call,
            pure_eq_done, run_done, isValue] at isMade
          have kept := passes.keeps (.jsStringRelease (some string)) _ _ _ rfl isContent
          rw [isMade]
          refine ⟨?_, ?_, by simp [isMemory]⟩
          · rintro _ ⟨⟩
            rw [kept]
            rfl
          · intro _ text isText
            obtain ⟨pointer, isCreated⟩ := created text isText
            rw [isString, Option.some_inj] at isCreated
            simp only [elementUnits, receivedOf, Option.bind_some, kept, Content.units?]
            rw [isUnits _ (congrArg JSStringRef.text isCreated), readUnits]

/-- What an array gets of its elements. -/
theorem run_elements (hitches : List Hitch) (state : State) :
    let made := (mapEach (fun hitch : Hitch => halfHitchToJSValue context hitch.halfhitch)
      hitches).run handle state
    hitches.Forall₂ (fun hitch value => Held contentOf made.2 value ∧
      ReceivesElement hitch (elementUnits contentOf made.2 value)) made.1 := by
  induction hitches generalizing state with
  | nil => exact .nil
  | cons hitch hitches ih =>
      obtain ⟨isHeld, isElement⟩ := run_halfHitchToJSValue passes hitch state
      have passing := Uses.mapEach (fun hitch : Hitch =>
        passing_halfHitchToJSValue context hitch.halfhitch) hitches
      obtain ⟨same, stillHeld⟩ := receivedOf_run passes passing isHeld
      intro made
      simp only [made, run_mapEach_cons]
      refine .cons ⟨stillHeld, ?_⟩ (ih _)
      rwa [elementUnits, same]

/-- What a script gets of an array. -/
theorem run_hitchArray (hitches : List Hitch) (state : State) :
    let made := ((JibUnknown.hitchArray hitches).createContextValue context).run handle state
    Held contentOf made.2 made.1 ∧
      ∃ elements, ReceivesArray hitches elements (receivedOf contentOf made.2 made.1) := by
  have each := run_elements passes hitches state
  intro made
  have isMade : made = ((JibUnknown.hitchArray hitches).createContextValue context).run handle
    state := rfl
  simp only [JibUnknown.createContextValue, jsObjectMakeArray, run_bind, run_call, run_done]
    at isMade
  generalize (mapEach (fun hitch : Hitch => halfHitchToJSValue context hitch.halfhitch)
    hitches).run handle state = converted at *
  rw [isMade]
  refine ⟨?_, converted.1.map (elementUnits contentOf converted.2), ?_, ?_, ?_⟩
  · intro array isArray
    obtain ⟨content, isContent, _⟩ := passes.madeArray _ _ array isArray
    rw [isContent]
    rfl
  · rw [List.forall₂_map_right_iff]
    exact each.imp fun _ _ element => element.2
  · intro areSome
    obtain ⟨array, isArray, isContent⟩ := passes.makeArray converted.1 converted.2 (by
      intro value member
      have isSome := areSome _ (List.mem_map_of_mem member)
      cases value with
      | none => cases isSome
      | some value => rfl)
    simp only [isArray, receivedOf, Option.bind_some, isContent]
  · intro others isOthers
    simp only [receivedOf] at isOthers
    obtain ⟨array, isArray, isContent⟩ := Option.bind_eq_some_iff.mp isOthers
    obtain ⟨content, hasContent, only⟩ := passes.madeArray _ _ array isArray
    exact only others (Option.some.inj (hasContent.symm.trans isContent))

/-- What a script gets of an argument, if a context is what it is created with. -/
theorem run_createContextValue {argument : SwiftArgument F} {state : State}
    (wraps : Wraps contentOf [some argument] state) :
    let made := (argument.jsc.createContextValue context).run handle state
    Held contentOf made.2 made.1 ∧
      Receives (some argument) (receivedOf contentOf made.2 made.1) := by
  cases argument with
  | function identity other wrapper =>
      obtain ⟨object, isObject, isContent⟩ := wraps identity other wrapper List.mem_cons_self
      simp only [SwiftArgument.jsc, JibUnknown.createContextValue, isObject]
      exact held_some isContent
  | hitchArray hitches => exact run_hitchArray passes hitches state
  | text source =>
      have created : source.jsc.createContextValue context = sourceString source >>= fun string =>
          some <$> createStringJibValue context string := by
        cases source <;> rfl
      simp only [SwiftArgument.jsc, created]
      exact run_sourceString passes source state
  | int value => exact held_some (passes.makeNumber (.ofInt value) state)
  | uint value => exact held_some (passes.makeNumber (.ofInt value) state)
  | double value => exact held_some (passes.makeNumber value state)
  | float value => exact held_some (passes.makeNumber value.widen state)
  | bool value => exact held_some (passes.makeBoolean value state)

end

/-- What a script gets of an argument of a call. -/
theorem run_convertArgument {jib : JibFields}
    (passes : PassesValues handle contentOf jib.context) {argument : Option (SwiftArgument F)}
    {state : State} (wraps : Wraps contentOf [argument] state)
    (booleans : HasBooleans contentOf jib state) :
    let made := (convertArgument jib (argument.map SwiftArgument.jsc)).run handle state
    Held contentOf made.2 made.1 ∧ Receives argument (receivedOf contentOf made.2 made.1) := by
  cases argument with
  | none => exact ⟨held_none, rfl⟩
  | some argument =>
      cases argument with
      | bool value =>
          cases value with
          | true => exact held_some booleans.trueValue
          | false => exact held_some booleans.falseValue
      | text source =>
          have created : convertArgument jib
              ((some (SwiftArgument.text source : SwiftArgument F)).map SwiftArgument.jsc) =
                source.jsc.createContextValue jib.context := by
            cases source <;> rfl
          rw [created]
          exact run_createContextValue passes wraps
      | _ => exact run_createContextValue passes wraps

/-- What a script gets of the arguments of a call. -/
theorem run_convertArguments {jib : JibFields}
    (passes : PassesValues handle contentOf jib.context)
    {arguments : List (Option (SwiftArgument F))} {state : State}
    (wraps : Wraps contentOf arguments state) (booleans : HasBooleans contentOf jib state) :
    let made := (mapEach (convertArgument jib) (arguments.map (Option.map SwiftArgument.jsc))).run
      handle state
    arguments.Forall₂ (fun argument value => Receives argument (receivedOf contentOf made.2 value))
      made.1 := by
  induction arguments generalizing state with
  | nil => exact .nil
  | cons argument rest ih =>
      have passing := passing_convertArgument jib (argument.map SwiftArgument.jsc)
      have keeps := fun {value : JSValueRef} {content : Content F}
        (isContent : contentOf state value = some content) => contentOf_run passes passing isContent
      have wrapsFirst : Wraps contentOf [argument] state := fun identity other wrapper member =>
        wraps identity other wrapper (List.mem_cons.mpr (.inl (List.mem_singleton.mp member)))
      have wrapsRest : Wraps contentOf rest _ := fun identity other wrapper member => by
        obtain ⟨object, isObject, isContent⟩ :=
          wraps identity other wrapper (List.mem_cons_of_mem _ member)
        exact ⟨object, isObject, keeps isContent⟩
      obtain ⟨isHeld, isReceived⟩ := run_convertArgument passes wrapsFirst booleans
      have passingRest : Passing (mapEach (convertArgument jib)
          (rest.map (Option.map SwiftArgument.jsc))) :=
        Uses.mapEach (passing_convertArgument jib) _
      obtain ⟨same, _⟩ := receivedOf_run passes passingRest isHeld
      intro made
      simp only [made, List.map_cons, run_mapEach_cons]
      refine .cons ?_ (ih wrapsRest ⟨keeps booleans.trueValue, keeps booleans.falseValue⟩)
      rwa [same]

/-! ## Calls and callbacks -/

/-- The values that a script is called with. -/
def calledWith (contentOf : State → JSValueRef → Option (Content F)) (state : State) :
    Command → Option (List (Option (Content F)))
  | .jsObjectCallAsFunction _ _ arguments => some (arguments.map (receivedOf contentOf state))
  | _ => none

/-- No script is called. -/
abbrev Callless {α : Type} (contentOf : State → JSValueRef → Option (Content F))
    (program : Operation α) : Prop :=
  program.Uses fun command : Command => ∀ state, calledWith contentOf state command = none

theorem Passing.callless {α : Type} {program : Operation α} (passing : Passing program) :
    Callless contentOf program :=
  Uses.mono passing fun command isPassing _ => by
    cases command <;> first | rfl | cases isPassing

/-- What follows a call. -/
theorem callless_called (context : JSGlobalContextRef)
    (called : Option JSValueRef × Option JSValueRef) :
    Callless contentOf (match called.2 with
      | some jsException => record context jsException
      | none => return called.1 : Operation (Option JSValueRef)) := by
  cases called.2 with
  | none => trivial
  | some jsException =>
      exact Uses.mono (reading_record context jsException) fun command isReader _ => by
        cases command <;> first | rfl | cases isReader

/-- A call hands over the values that its arguments become. -/
theorem shows_callJSValue {jib : JibFields}
    (passes : PassesValues handle contentOf jib.context)
    {arguments : List (Option (SwiftArgument F))} {state : State}
    (alive : (handle .readReleased state).1 = false) (wraps : Wraps contentOf arguments state)
    (booleans : HasBooleans contentOf jib state) (function : JibFunction) :
    ∃ received, arguments.Forall₂ Receives received ∧
      (callJSValue jib function (arguments.map (Option.map SwiftArgument.jsc))).shows
        (calledWith contentOf) handle state = [received] := by
  have keeps := fun {value : JSValueRef} {content : Content F} =>
    passes.keeps .readReleased state value content rfl
  have wrapsStill : Wraps contentOf arguments _ := fun identity other wrapper member => by
    obtain ⟨object, isObject, isContent⟩ := wraps identity other wrapper member
    exact ⟨object, isObject, keeps isContent⟩
  have areReceived := run_convertArguments passes wrapsStill
    ⟨keeps booleans.trueValue, keeps booleans.falseValue⟩
  have converting : Callless contentOf (mapEach (convertArgument jib)
      (arguments.map (Option.map SwiftArgument.jsc))) :=
    Passing.callless (Uses.mapEach (passing_convertArgument jib) _)
  have sameLength := areReceived.length_eq
  rw [callJSValue, shows_unlessReleased rfl alive, shows_bind, converting.shows_eq_nil,
    List.nil_append]
  generalize (mapEach (convertArgument jib) (arguments.map (Option.map SwiftArgument.jsc))).run
    handle (handle .readReleased state).2 = converted at *
  refine ⟨converted.1.map (receivedOf contentOf converted.2), ?_, ?_⟩
  · rwa [List.forall₂_map_right_iff]
  · rw [callConverted, if_neg (by rw [List.length_map, sameLength]; exact not_not_intro rfl)]
    apply (shows_call _ _ _).trans
    exact congrArg (_ ++ ·) ((callless_called jib.context _).shows_eq_nil handle _)

/-- A body on the parameters that it gets for some arguments. -/
def invokeBody (context : JSGlobalContextRef) (body : List Bytes → Operation (Option JibUnknown))
    (arguments : List (Option JSValueRef)) : Operation (Option JibUnknown) := do
  let parameters ← mapEach (callbackParameter context) (arguments.filterMap id)
  body parameters

/-- What a script gets of a callback. -/
def returned (handle : Handler interface State)
    (contentOf : State → JSValueRef → Option (Content F)) (program : Operation (Option JSValueRef))
    (start : State) : Option (Content F) :=
  receivedOf contentOf (program.run handle start).2 (program.run handle start).1

/-- A callback returns the value that the result of its body becomes. -/
theorem receives_callbackRun (passes : PassesValues handle contentOf context)
    {body : List Bytes → Operation (Option JibUnknown)} {arguments : List (Option JSValueRef)}
    {start state : State} {result : Option (SwiftArgument F)}
    (ends : (invokeBody context body arguments).run handle start =
      (result.map SwiftArgument.jsc, state))
    (wraps : Wraps contentOf [result] state) :
    Receives result (returned handle contentOf (callbackRun context body arguments) start) := by
  have runs : (callbackRun context body arguments).run handle start =
      (callbackResult context (result.map SwiftArgument.jsc)).run handle state := by
    rw [invokeBody] at ends
    rw [callbackRun, ← bind_assoc, run_bind, ends]
  rw [returned, runs]
  cases result with
  | none => exact rfl
  | some result => exact (run_createContextValue passes wraps).2

end Jib.JSC
