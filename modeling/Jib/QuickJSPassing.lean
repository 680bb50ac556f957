import Jib.PassedValues
import Jib.QuickJSPublicOperations
import Jib.SoloRuns

/-!
# The values that QuickJS hands to a script

A converted argument is a reference that the caller owns.  What is behind it
stays the same until the caller frees it; an array has references of its own to
the strings that are freed once they have been pushed.
-/

namespace Jib.QuickJS

open BinaryNumbers CommandProgram Program UnicodeText

variable {F State : Type}

/-! ## What the engine does -/

/-- The JS value of a value that points to no memory. -/
def JSValue.immediate : JSValue → Option (Content F)
  | .undefined => some .undefined
  | .null => some .null
  | .bool value => some (.boolean value)
  | .int value => some (.number (jsNumber (.ofInt value)))
  | .float64 value => some (.number (jsNumber value))
  | _ => none

/-- References, with what is behind them. -/
abbrev OwnedValues (F : Type) := List (JSValue × Content F)

/-- The engine functions that convert arguments. -/
def Command.isPassing : Command → Bool
  | .jsDupValue _ => true
  | .jsNewStringLen _ => true
  | .jsNewBigUint64 _ => true
  | .jsNewArray => true
  | .jsArrayPush .. => true
  | .jsFreeValue _ => true
  | _ => false

/-- The string behind an element, if it is one. -/
def elementUnits (contentOf : State → JSValue → Option (Content F)) (state : State)
    (value : JSValue) : Option (List UInt16) :=
  (contentOf state value).bind Content.units?

/-- The engine keeps what is behind the references that are `Owned`.  In a
`Plain` state no prototype has a property by an index, so that elements are
pushed onto arrays themselves.  Memory does not run out. -/
structure PassesValues (handle : Handler interface State)
    (contentOf : State → JSValue → Option (Content F)) (Owned : State → OwnedValues F → Prop)
    (Plain : State → Prop) : Prop where
  immediate : ∀ state value, value.pointer? = none → contentOf state value = value.immediate
  keeps : ∀ state owned value content, Owned state owned → (value, content) ∈ owned →
    contentOf state value = some content
  perm : ∀ state owned other, Owned state owned → owned.Perm other → Owned state other
  dupValue : ∀ state owned value content, Owned state owned → (value, content) ∈ owned →
    (handle (.jsDupValue value) state).1 = value ∧
      Owned (handle (.jsDupValue value) state).2 ((value, content) :: owned)
  newString : ∀ state owned bytes string, Owned state owned →
    newStringLen bytes = some string →
      Owned (handle (.jsNewStringLen bytes) state).2
        (((handle (.jsNewStringLen bytes) state).1, .string string.units) :: owned)
  tooLong : ∀ state owned bytes, Owned state owned → newStringLen bytes = none →
    (handle (.jsNewStringLen bytes) state).1 = .exception ∧
      Owned (handle (.jsNewStringLen bytes) state).2 owned
  newBigUint64 : ∀ state owned value, Owned state owned →
    Owned (handle (.jsNewBigUint64 value) state).2
      (((handle (.jsNewBigUint64 value) state).1, .bigInt value) :: owned)
  newArray : ∀ state owned, Owned state owned →
    (∀ content, ((handle .jsNewArray state).1, content) ∉ owned) ∧
      Owned (handle .jsNewArray state).2 (((handle .jsNewArray state).1, .array []) :: owned)
  arrayPush : ∀ state owned array values, Plain state →
    Owned state ((array, .array []) :: owned) → (∀ content, (array, content) ∉ owned) →
      ∃ content, Owned (handle (.jsArrayPush array values) state).2 ((array, content) :: owned) ∧
        (values.length < 2 ^ 31 → content = .array (values.map (elementUnits contentOf state)))
  freeValue : ∀ state owned value content, Owned state ((value, content) :: owned) →
    Owned (handle (.jsFreeValue value) state).2 owned
  freeException : ∀ state owned, Owned state owned →
    Owned (handle (.jsFreeValue .exception) state).2 owned
  plain : ∀ command state, command.isPassing = true → Plain state →
    Plain (handle command state).2

/-- Only what converts arguments. -/
abbrev Passing {α : Type} (program : Operation α) : Prop :=
  program.Uses fun command : Command => command.isPassing = true

theorem passing_newStrings (strings : List Bytes) : Passing (mapEach jsNewStringLen strings) := by
  apply Uses.mapEach
  exact fun _ => ⟨rfl, fun _ => trivial⟩

theorem passing_freeValues (values : List JSValue) : Passing (forEach jsFreeValue values) := by
  apply Uses.forEach
  exact fun _ => ⟨rfl, fun _ => trivial⟩

theorem passing_convertArgument (argument : Option JibUnknown) :
    Passing (convertArgument argument) := by
  cases argument with
  | none => trivial
  | some argument =>
      cases argument with
      | hitchArray hitches =>
          refine (passing_newStrings hitches).bind fun arguments => ⟨rfl, fun array => ⟨rfl, ?_⟩⟩
          exact fun _ => (passing_freeValues arguments).bind fun _ => trivial
      | jibFunction function => exact ⟨rfl, fun _ => trivial⟩
      | string bytes => exact ⟨rfl, fun _ => trivial⟩
      | staticString bytes => exact ⟨rfl, fun _ => trivial⟩
      | hitch bytes => exact ⟨rfl, fun _ => trivial⟩
      | halfHitch slice => exact ⟨rfl, fun _ => trivial⟩
      | uint value => exact ⟨rfl, fun _ => trivial⟩
      | _ => trivial

/-- A value is itself or is behind one of these references. -/
def Held (owned : OwnedValues F) (value : JSValue) (received : Option (Content F)) : Prop :=
  value.pointer? = none ∧ value.immediate = received ∨
    ∃ content, received = some content ∧ (value, content) ∈ owned

variable {handle : Handler interface State} {contentOf : State → JSValue → Option (Content F)}
  {Owned : State → OwnedValues F → Prop} {Plain : State → Prop} {state : State}
  {owned : OwnedValues F}

/-- What the conversion of arguments starts with: the functions among them are
owned, and arrays can be pushed onto. -/
structure CanPass (Owned : State → OwnedValues F → Prop) (Plain : State → Prop)
    (arguments : List (Option (SwiftArgument F))) (state : State) (owned : OwnedValues F) :
    Prop where
  owns : Owned state owned
  functions : ∀ identity wrapper other, some (.function identity wrapper other) ∈ arguments →
    (wrapper.functionValueRef, .function identity) ∈ owned
  plain : ∀ hitches, some (.hitchArray hitches) ∈ arguments → Plain state

theorem Held.mono {other : OwnedValues F} {value : JSValue} {received : Option (Content F)}
    (held : Held owned value received) (within : owned ⊆ other) : Held other value received :=
  held.imp id fun ⟨content, isContent, member⟩ => ⟨content, isContent, within member⟩

section

theorem held_of_denotes {value : JSValue} {number : Binary64} (denotes : value.Denotes number) :
    Held owned value (some (.number (jsNumber number))) := by
  cases value with
  | int integer =>
      obtain ⟨_, rfl⟩ := denotes
      exact Or.inl ⟨rfl, rfl⟩
  | float64 double =>
      obtain rfl : number = double := denotes
      exact Or.inl ⟨rfl, rfl⟩
  | _ => exact denotes.elim

variable (passes : PassesValues handle contentOf Owned Plain)
include passes

theorem contentOf_of_held {value : JSValue} {received : Option (Content F)}
    (owns : Owned state owned) (held : Held owned value received) :
    contentOf state value = received := by
  rcases held with ⟨noPointer, rfl⟩ | ⟨content, rfl, member⟩
  · exact passes.immediate state value noPointer
  · exact passes.keeps state owned value content owns member

/-- A string is owned if it could be made, and can be freed. -/
theorem run_newString (bytes : Bytes) (owns : Owned state owned) :
    ∃ made : OwnedValues F,
      Owned (handle (.jsNewStringLen bytes) state).2 (made ++ owned) ∧
        Held made (handle (.jsNewStringLen bytes) state).1 ((madeUnits bytes).map .string) ∧
        ∀ other rest, Owned other (made ++ rest) →
          Owned (handle (.jsFreeValue (handle (.jsNewStringLen bytes) state).1) other).2 rest := by
  cases isMade : newStringLen bytes with
  | none =>
      obtain ⟨isException, ownsStill⟩ := passes.tooLong state owned bytes owns isMade
      rw [isException, madeUnits, isMade]
      exact ⟨[], ownsStill, .inl ⟨rfl, rfl⟩, passes.freeException⟩
  | some string =>
      have ownsString := passes.newString state owned bytes string owns isMade
      rw [madeUnits, isMade]
      exact ⟨[_], ownsString, .inr ⟨_, rfl, List.mem_cons_self⟩,
        fun other rest => passes.freeValue other rest _ _⟩

/-- The strings of an array are made, and freed when they have been used. -/
theorem run_newStrings (strings : List Bytes) (owns : Owned state owned) :
    ∃ made : OwnedValues F,
      Owned ((mapEach jsNewStringLen strings).run handle state).2 (made ++ owned) ∧
        ((mapEach jsNewStringLen strings).run handle state).1.Forall₂
          (fun value bytes => Held made value ((madeUnits bytes).map .string)) strings ∧
        ∀ other rest, Owned other (made ++ rest) →
          Owned ((forEach jsFreeValue ((mapEach jsNewStringLen strings).run handle state).1).run
            handle other).2 rest := by
  induction strings generalizing state owned with
  | nil => exact ⟨[], owns, .nil, fun _ _ ownsRest => ownsRest⟩
  | cons bytes strings ih =>
      obtain ⟨first, ownsFirst, isHeld, freesFirst⟩ := run_newString passes bytes owns
      obtain ⟨made, ownsMade, areHeld, frees⟩ := ih ownsFirst
      simp only [run_mapEach_cons, run_forEach_cons, jsNewStringLen, jsFreeValue, run_call,
        run_done] at frees ⊢
      refine ⟨first ++ made, ?_, .cons (isHeld.mono (by simp))
        (areHeld.imp fun _ _ held => held.mono (by simp)), ?_⟩
      · rw [List.append_assoc]
        exact passes.perm _ _ _ ownsMade (List.perm_append_comm_assoc _ _ _)
      · intro other rest ownsOther
        rw [List.append_assoc] at ownsOther
        exact frees _ rest (freesFirst other _ ownsOther)

/-- An array is made of the strings that could be made. -/
theorem run_createArrayJibValue (strings : List Bytes) (owns : Owned state owned)
    (plain : Plain state) :
    ∃ content,
      Owned ((createArrayJibValue strings).run handle state).2
          ((((createArrayJibValue strings).run handle state).1, content) :: owned) ∧
        (strings.length < 2 ^ 31 → content = .array (strings.map madeUnits)) := by
  obtain ⟨made, ownsMade, areHeld, frees⟩ := run_newStrings passes strings owns
  have plainMade := (passing_newStrings strings).run_keeps passes.plain plain
  simp only [createArrayJibValue, run_bind, jsNewArray, jsArrayPush, run_call, run_done,
    pure_eq_done]
  generalize (mapEach jsNewStringLen strings).run handle state = converted at *
  obtain ⟨fresh, ownsArray⟩ := passes.newArray _ _ ownsMade
  have plainArray := passes.plain .jsNewArray _ rfl plainMade
  obtain ⟨content, ownsPushed, isArray⟩ := passes.arrayPush _ _ _ converted.1 plainArray
    ownsArray fresh
  refine ⟨content, frees _ _ (passes.perm _ _ _ ownsPushed List.perm_middle.symm), ?_⟩
  intro fits
  have elements := areHeld.imp fun value bytes (held : Held made value _) =>
    show elementUnits contentOf _ value = madeUnits bytes by
      rw [elementUnits, contentOf_of_held passes ownsArray (held.mono (by simp))]
      cases madeUnits bytes <;> rfl
  have same := List.forall₂_map_left_iff.mpr (List.forall₂_map_right_iff.mpr elements)
  rw [List.forall₂_eq_eq_eq] at same
  rw [isArray (areHeld.length_eq ▸ fits), same]

/-- An argument becomes a value that is received as it should be. -/
theorem run_convertArgument {argument : Option (SwiftArgument F)}
    {rest : List (Option (SwiftArgument F))}
    (ready : CanPass Owned Plain (argument :: rest) state owned) :
    ∃ made received,
      Owned ((convertArgument (argument.map SwiftArgument.quickJS)).run handle state).2
          (made ++ owned) ∧
        Held made ((convertArgument (argument.map SwiftArgument.quickJS)).run handle state).1
          received ∧
        Receives argument received := by
  cases argument with
  | none => exact ⟨[], _, ready.owns, .inl ⟨rfl, rfl⟩, rfl⟩
  | some argument =>
      cases argument with
      | function identity wrapper other =>
          obtain ⟨same, owns⟩ := passes.dupValue state owned _ _ ready.owns
            (ready.functions identity wrapper other List.mem_cons_self)
          exact ⟨[_], _, owns, .inr ⟨_, rfl, List.mem_singleton.mpr (Prod.ext same rfl)⟩, rfl⟩
      | hitchArray hitches =>
          obtain ⟨content, owns, isArray⟩ := run_createArrayJibValue passes
            (hitches.map fun hitch => hitch.halfhitch.bytes) ready.owns
            (ready.plain hitches List.mem_cons_self)
          refine ⟨[_], _, owns, .inr ⟨_, rfl, List.mem_cons_self⟩, ?_⟩
          intro fits
          rw [isArray (by rwa [List.length_map]), List.map_map]
          rfl
      | text source =>
          obtain ⟨made, owns, isHeld, _⟩ := run_newString passes source.bytes ready.owns
          have creates : convertArgument ((some (SwiftArgument.text source : SwiftArgument F)).map
              SwiftArgument.quickJS) = jsNewStringLen source.bytes := createJibValue_eq source
          rw [creates]
          exact ⟨made, _, owns, isHeld, rfl⟩
      | uint value =>
          exact ⟨[_], _, passes.newBigUint64 state owned value ready.owns,
            .inr ⟨_, rfl, List.mem_cons_self⟩, rfl⟩
      | int value =>
          exact ⟨[], _, ready.owns, held_of_denotes (denotes_jsNewInt64 value), rfl⟩
      | double value =>
          exact ⟨[], _, ready.owns, held_of_denotes (denotes_jsNewFloat64 value), rfl⟩
      | float value =>
          exact ⟨[], _, ready.owns, held_of_denotes (denotes_jsNewFloat64 value.widen), rfl⟩
      | bool value => exact ⟨[], _, ready.owns, .inl ⟨rfl, rfl⟩, rfl⟩

/-- What is received of the values that arguments become. -/
theorem run_convertArguments {arguments : List (Option (SwiftArgument F))}
    (ready : CanPass Owned Plain arguments state owned) :
    ∃ made,
      Owned ((mapEach convertArgument (arguments.map (Option.map SwiftArgument.quickJS))).run
          handle state).2 (made ++ owned) ∧
        arguments.Forall₂ (fun argument value => ∃ received,
            Held made value received ∧ Receives argument received)
          ((mapEach convertArgument (arguments.map (Option.map SwiftArgument.quickJS))).run
            handle state).1 := by
  induction arguments generalizing state owned with
  | nil => exact ⟨[], ready.owns, .nil⟩
  | cons argument rest ih =>
      obtain ⟨first, received, ownsFirst, isHeld, isReceived⟩ := run_convertArgument passes ready
      have readyRest : CanPass Owned Plain rest _ (first ++ owned) := {
        owns := ownsFirst
        functions := fun identity wrapper other member => List.mem_append_right first
          (ready.functions identity wrapper other (List.mem_cons_of_mem _ member))
        plain := fun hitches member => (passing_convertArgument _).run_keeps passes.plain
          (ready.plain hitches (List.mem_cons_of_mem _ member)) }
      obtain ⟨made, ownsMade, areReceived⟩ := ih readyRest
      rw [List.map_cons, run_mapEach_cons]
      refine ⟨first ++ made, ?_, .cons ⟨received, isHeld.mono (by simp), isReceived⟩ ?_⟩
      · rw [List.append_assoc]
        exact passes.perm _ _ _ ownsMade (List.perm_append_comm_assoc _ _ _)
      · exact areReceived.imp fun _ _ ⟨received, isHeld, isReceived⟩ =>
          ⟨received, isHeld.mono (by simp), isReceived⟩

end

/-! ## Counts of arguments -/

/-- A command that is given its number of arguments. -/
def Command.isCounted : Command → Bool
  | .jsCall .. => true
  | .jsArrayPush .. => true
  | _ => false

/-- No counts that could be too large. -/
abbrev Countless {α : Type} (program : Operation α) : Prop :=
  program.Uses fun command : Command => command.isCounted = false

theorem countless_newString (bytes : Bytes) : Countless (jsNewStringLen bytes) :=
  ⟨rfl, fun _ => trivial⟩

theorem countless_freeValues (values : List JSValue) :
    Countless (forEach jsFreeValue values) := by
  apply Uses.forEach
  exact fun _ => ⟨rfl, fun _ => trivial⟩

theorem countless_recordIf (value : JSValue) : Countless (recordIf value) := by
  have reading : ∀ exceptionValue, Countless (exceptionHitch exceptionValue) :=
    fun exceptionValue => Uses.mono (reading_exceptionHitch exceptionValue)
      fun command isReader => by cases command <;> first | rfl | cases isReader
  unfold recordIf
  split
  · refine ⟨rfl, fun exceptionValue => (reading exceptionValue).bind fun _ => ?_⟩
    exact ⟨rfl, fun _ => ⟨rfl, fun _ => trivial⟩⟩
  · trivial

/-- What follows a call. -/
theorem countless_called (convertedArgs : List JSValue) (result : JSValue) :
    Countless (do
      forEach jsFreeValue convertedArgs
      match ← recordIf result with
      | some _ => return some result
      | none => return none : Operation (Option JSValue)) := by
  refine (countless_freeValues convertedArgs).bind fun _ => ?_
  refine (countless_recordIf result).bind fun recorded => ?_
  cases recorded <;> trivial

theorem Countless.always {α : Type} {program : Operation α} (countless : Countless program)
    (state : State) : program.Always handle (fun _ => Command.CountFits) state :=
  Uses.always countless (fun command _ notCounted => by cases command <;> trivial) state

/-- An array is made without a trap exactly if its elements can be counted. -/
theorem always_createArrayJibValue_iff (hitches : List Bytes) :
    (createArrayJibValue hitches).Always handle (fun _ => Command.CountFits) state ↔
      hitches.length < 2 ^ 31 := by
  have strings : (mapEach jsNewStringLen hitches).Always handle
      (fun _ => Command.CountFits) state :=
    Countless.always (Uses.mapEach countless_newString hitches) state
  have length := length_run_mapEach handle jsNewStringLen hitches state
  simp only [createArrayJibValue, always_bind, strings, true_and]
  generalize (mapEach jsNewStringLen hitches).run handle state = converted at *
  simp [jsNewArray, jsArrayPush, Command.CountFits, length,
    (countless_freeValues converted.1).always]

/-- An argument is converted without a trap exactly if it is countable. -/
theorem always_convertArgument_iff (argument : Option (SwiftArgument F)) :
    (convertArgument (argument.map SwiftArgument.quickJS)).Always handle
        (fun _ => Command.CountFits) state ↔ Countable argument := by
  cases argument with
  | none => exact iff_of_true trivial trivial
  | some argument =>
      cases argument with
      | hitchArray hitches =>
          refine (always_createArrayJibValue_iff _).trans ?_
          rw [List.length_map]
          exact Iff.rfl
      | text source =>
          have creates : convertArgument ((some (SwiftArgument.text source : SwiftArgument F)).map
              SwiftArgument.quickJS) = jsNewStringLen source.bytes := createJibValue_eq source
          rw [creates]
          exact iff_of_true ((countless_newString source.bytes).always state) trivial
      | function identity wrapper other => exact iff_of_true ⟨trivial, trivial⟩ trivial
      | uint value => exact iff_of_true ⟨trivial, trivial⟩ trivial
      | _ => exact iff_of_true trivial trivial

theorem always_convertArguments_iff (arguments : List (Option (SwiftArgument F))) :
    (mapEach convertArgument (arguments.map (Option.map SwiftArgument.quickJS))).Always handle
        (fun _ => Command.CountFits) state ↔ ∀ argument ∈ arguments, Countable argument := by
  induction arguments generalizing state with
  | nil => simp [mapEach]
  | cons argument rest ih =>
      rw [List.map_cons, mapEach, always_bind, always_convertArgument_iff, always_bind, ih,
        List.forall_mem_cons]
      exact and_congr_right fun _ => and_iff_left trivial

/-- A call is made without a trap exactly if its arguments can be counted. -/
theorem always_callJSValue_iff (function : JibFunction)
    (arguments : List (Option (SwiftArgument F))) :
    (callJSValue function (arguments.map (Option.map SwiftArgument.quickJS))).Always handle
        (fun _ => Command.CountFits) state ↔
      arguments.length < 2 ^ 31 ∧ ∀ argument ∈ arguments, Countable argument := by
  have length := length_run_mapEach handle convertArgument
    (arguments.map (Option.map SwiftArgument.quickJS)) state
  rw [callJSValue, always_bind, always_convertArguments_iff, and_comm]
  generalize (mapEach convertArgument (arguments.map (Option.map SwiftArgument.quickJS))).run
    handle state = converted at *
  have checked : checkConverted (arguments.map (Option.map SwiftArgument.quickJS)).length
      converted.1.length = .done () := if_pos length.symm
  rw [List.length_map] at length
  rw [checked]
  refine and_congr_left fun _ => ?_
  rw [← length]
  exact and_iff_left ((countless_called converted.1 _).always _)

/-! ## Calls and callbacks -/

/-- The values that a script is called with. -/
def calledWith (contentOf : State → JSValue → Option (Content F)) (state : State) :
    Command → Option (List (Option (Content F)))
  | .jsCall _ _ arguments => some (arguments.map (contentOf state))
  | _ => none

/-- No script is called. -/
abbrev Callless {α : Type} (contentOf : State → JSValue → Option (Content F))
    (program : Operation α) : Prop :=
  program.Uses fun command : Command => ∀ state, calledWith contentOf state command = none

theorem Passing.callless {α : Type} {program : Operation α} (passing : Passing program) :
    Callless contentOf program :=
  Uses.mono passing fun command isPassing _ => by
    cases command <;> first | rfl | cases isPassing

theorem Countless.callless {α : Type} {program : Operation α} (countless : Countless program) :
    Callless contentOf program :=
  Uses.mono countless fun command notCounted _ => by
    cases command <;> first | rfl | cases notCounted

/-- A call hands over the values that its arguments become. -/
theorem shows_callJSValue (passes : PassesValues handle contentOf Owned Plain)
    {arguments : List (Option (SwiftArgument F))}
    (ready : CanPass Owned Plain arguments state owned) (function : JibFunction) :
    ∃ received, arguments.Forall₂ Receives received ∧
      (callJSValue function (arguments.map (Option.map SwiftArgument.quickJS))).shows
        (calledWith contentOf) handle state = [received] := by
  obtain ⟨made, owns, areReceived⟩ := run_convertArguments passes ready
  have converting : Callless contentOf (mapEach convertArgument
      (arguments.map (Option.map SwiftArgument.quickJS))) :=
    Passing.callless (Uses.mapEach passing_convertArgument _)
  have sameLength := areReceived.length_eq
  rw [callJSValue, shows_bind, converting.shows_eq_nil, List.nil_append]
  generalize (mapEach convertArgument (arguments.map (Option.map SwiftArgument.quickJS))).run
    handle state = converted at *
  refine ⟨converted.1.map (contentOf converted.2), ?_, ?_⟩
  · rw [List.forall₂_map_right_iff]
    apply areReceived.imp
    rintro argument value ⟨received, isHeld, isReceived⟩
    rwa [contentOf_of_held passes owns (isHeld.mono (by simp))]
  · rw [checkConverted, if_pos (by rw [List.length_map, sameLength])]
    apply (shows_call _ _ _).trans
    exact congrArg (_ ++ ·) ((countless_called converted.1 _).callless.shows_eq_nil handle _)

/-- A body on the parameters that it gets for some arguments. -/
def invokeBody (body : List Bytes → Operation (Option JibUnknown)) (arguments : List JSValue) :
    Operation (Option JibUnknown) := do
  let parameters ← mapEach callbackParameter arguments
  body parameters

/-- What a script gets of a callback. -/
def returned (handle : Handler interface State)
    (contentOf : State → JSValue → Option (Content F)) (program : Operation JSValue)
    (start : State) : Option (Content F) :=
  contentOf (program.run handle start).2 (program.run handle start).1

/-- The result of a body is converted as an argument is. -/
theorem callbackResult_eq (result : Option JibUnknown) :
    callbackResult result = convertArgument result := by
  cases result <;> rfl

/-- A callback returns the value that the result of its body becomes. -/
theorem receives_callback (passes : PassesValues handle contentOf Owned Plain)
    {bodyOf : AnyPtr → Option (List Bytes → Operation (Option JibUnknown))} {magic : AnyPtr}
    {body : List Bytes → Operation (Option JibUnknown)} (isBody : bodyOf magic = some body)
    {arguments : List JSValue} {start : State} {result : Option (SwiftArgument F)}
    (ends : (invokeBody body arguments).run handle start =
      (result.map SwiftArgument.quickJS, state))
    (ready : CanPass Owned Plain [result] state owned) :
    Receives result (returned handle contentOf (callback bodyOf magic arguments) start) := by
  obtain ⟨made, received, owns, isHeld, isReceived⟩ := run_convertArgument passes ready
  have runs : (callback bodyOf magic arguments).run handle start =
      (convertArgument (result.map SwiftArgument.quickJS)).run handle state := by
    rw [invokeBody] at ends
    simp only [callback, isBody]
    rw [← bind_assoc, run_bind, ends, callbackResult_eq]
  rw [returned, runs, contentOf_of_held passes owns (isHeld.mono (by simp))]
  exact isReceived

end Jib.QuickJS
