import Jib.Failures
import Jib.JSCPublicOperations

/-!
# Failures in the JavaScriptCore backend

A function of the engine that throws hands the thrown value out through a
parameter.  Every operation records what it throws, lookups after their last
attempt only; a lookup that fails then goes on with `undefined`.
-/

namespace Jib.JSC

open BinaryNumbers CommandProgram Program

variable {D : Type} {α : Type}

abbrev Failing := Failure JSValueRef

/-- A script, function or setter has run and handed out what it threw. -/
def Threw (before after : Failing) (exception : Option JSValueRef) : Prop :=
  after.exception = before.exception ∧ after.thrown.map Prod.fst = exception

/-- What the engine calls make of the last failure while the `Jib` has not been
released.  The string conversion of what was thrown gives its text, and that of
`undefined` its name. -/
def throwing (jib : JibFields) : Effect interface Failing
  | .readReleased, before, answer, after => after = before ∧ answer = false
  | .setException text, before, _, after => after = { before with exception := text }
  | .jsEvaluateScript .., before, answer, after => Threw before after answer.2
  | .jsObjectCallAsFunction .., before, answer, after => Threw before after answer.2
  | .jsObjectSetProperty .., before, answer, after => Threw before after answer
  | .jsStringCreateWithUTF8CString _, before, answer, after =>
      after = before ∧ answer.isSome = true
  | .jsStringGetMaximumUTF8CStringSize string, before, answer, after =>
      after = before ∧ string.text.length < answer
  | .jsStringGetUTF8CString string size, before, answer, after =>
      after = before ∧ (string.text.length < size → answer = string.text ++ [0])
  | .jsValueIsUndefined _ value, before, answer, after =>
      after = before ∧ (value = jib.undefined → answer = true)
  | .jsValueToStringCopy _ value, before, answer, after =>
      after = before ∧ (value = jib.undefined → answer.map JSStringRef.text = some undefinedHitch) ∧
        ∀ thrown ∈ before.thrown, value = thrown.1 → answer.map JSStringRef.text = thrown.2
  | .jsValueCreateJSONString _ value, before, answer, after =>
      after = before ∧ (value = jib.undefined → answer = none)
  | _, before, _, after => after = before

variable {jib : JibFields}

/-- Every end of the program meets `post`. -/
abbrev Ensures (jib : JibFields) (post : α → Failing → Prop) (program : Operation α)
    (state : Failing) : Prop :=
  program.Satisfies (throwing jib) (fun _ _ => True) post state

theorem ensures_quiet {program : Operation α} (quiet : Quiet program) (state : Failing) :
    Ensures jib (fun _ after => after = state) program state := by
  refine Uses.satisfies quiet ?_ rfl
  rintro command isQuiet _ rfl
  refine ⟨trivial, ?_⟩
  intro answer after moves
  cases command <;> first | exact Bool.noConfusion isQuiet | exact moves | exact moves.1

/-! ## Strings -/

section Strings

variable {post : Option α → Failing → Prop} {callback : JSStringRef → Operation (Option α)}
  {state : Failing}

theorem ensures_withJSString (memory : Bytes)
    (calls : ∀ string, Ensures jib post (callback string) state) :
    Ensures jib post (withJSString memory callback) state := by
  refine ⟨trivial, ?_⟩
  rintro string _ ⟨rfl, isSome⟩
  cases string with
  | none => cases isSome
  | some string => exact calls string

theorem ensures_hitchJSString_ofBytes (bytes : Bytes)
    (calls : ∀ string, Ensures jib post (callback string) state) :
    Ensures jib post (hitchJSString (.ofBytes bytes) callback) state := by
  simp only [hitchJSString, Hitch.raw_ofBytes, Hitch.following_ofBytes, if_true]
  exact ensures_withJSString _ calls

/-- With memory behind the slice the callback is called, whatever follows. -/
theorem ensures_jsString (slice : HalfHitch)
    (calls : slice.raw.isSome = true → ∀ string, Ensures jib post (callback string) state)
    (absent : slice.raw = none → post none state) :
    Ensures jib post (jsString slice callback) state := by
  unfold jsString
  cases hasMemory : slice.raw with
  | none => exact absent hasMemory
  | some memory =>
      have calls := calls (by simp [hasMemory])
      dsimp only
      split
      · exact ensures_withJSString _ calls
      · exact ensures_hitchJSString_ofBytes _ calls

theorem ensures_createJSString (slice : HalfHitch) (state : Failing) :
    Ensures jib (fun _ after => after = state) (createJSString slice) state :=
  ensures_jsString slice (fun _ _ => rfl) fun _ => rfl

end Strings

/-! ## Recording -/

/-- What is recorded of a thrown value with this text. -/
def recordedText (text : Option Bytes) : Bytes :=
  text.getD undefinedHitch

/-- After a recording the field tells of the value that was thrown. -/
def Recorded (failure : Failing) : Prop :=
  ∀ thrown ∈ failure.thrown, failure.exception = some (recordedText thrown.2)

/-- The text of a string of the engine. -/
theorem ensures_jsStringToHitch (string : Option JSStringRef) (state : Failing) :
    Ensures jib (fun text after =>
        text = recordedText (string.map JSStringRef.text) ∧ after = state)
      (jsStringToHitch string) state := by
  cases string with
  | none => exact ⟨rfl, rfl⟩
  | some string =>
      refine ⟨trivial, ?_⟩
      rintro size _ ⟨rfl, enough⟩
      refine ⟨trivial, ?_⟩
      rintro written _ ⟨rfl, isWhole⟩
      obtain rfl := isWhole enough
      exact ⟨by simp [recordedText], rfl⟩

/-- A value whose text is known is read as this text. -/
theorem ensures_jsValueToHitch {value : JSValueRef} {text : Option Bytes} {state : Failing}
    (isText : ∀ answer after,
      throwing jib (.jsValueToStringCopy jib.context value) state answer after →
        answer.map JSStringRef.text = text) :
    Ensures jib (fun reply after => reply = some (recordedText text) ∧ after = state)
      (jsValueToHitch jib.context (some value)) state := by
  refine ⟨trivial, ?_⟩
  intro string after converts
  obtain rfl := isText string after converts
  obtain ⟨rfl, _⟩ := converts
  change Ensures jib _ (jsStringToHitch string >>= fun _ => _) _
  refine Satisfies.bind ((ensures_jsStringToHitch string _).mono ?_)
  rintro result _ ⟨rfl, rfl⟩
  refine ⟨trivial, ?_⟩
  rintro _ _ rfl
  exact ⟨rfl, rfl⟩

theorem ensures_record {state : Failing} {thrown : JSValueRef × Option Bytes}
    (threw : state.thrown = some thrown) :
    Ensures jib (fun (reply : Option α) after => reply = none ∧
        after = ⟨some thrown, some (recordedText thrown.2)⟩)
      (record jib.context thrown.1) state := by
  have isText : ∀ answer after,
      throwing jib (.jsValueToStringCopy jib.context thrown.1) state answer after →
        answer.map JSStringRef.text = thrown.2 :=
    fun _ _ converts => converts.2.2 thrown threw rfl
  refine Satisfies.bind ((ensures_jsValueToHitch isText).mono ?_)
  rintro text _ ⟨rfl, rfl⟩
  refine ⟨trivial, ?_⟩
  rintro _ _ rfl
  exact ⟨rfl, by rw [← threw]⟩

/-! ## Calls, evaluations and assignments -/

theorem ensures_unlessReleased {post : α → Failing → Prop} (absent : α)
    {body : Operation α} {state : Failing} (ensures : Ensures jib post body state) :
    Ensures jib post (unlessReleased absent body) state := by
  refine ⟨trivial, ?_⟩
  rintro released _ ⟨rfl, rfl⟩
  exact ensures

theorem recorded_of_thrown_eq_none {state : Failing} (nothing : state.thrown = none) :
    Recorded state := by
  simp [Recorded, nothing]

theorem thrown_of_threw {before after : Failing} (threw : Threw before after none) :
    after.thrown = none := by
  simpa using threw.2

theorem ensures_record_of_threw {before state : Failing} {jsException : JSValueRef}
    (threw : Threw before state (some jsException)) :
    Ensures jib (fun (reply : Option α) after => reply = none ∧
        ∃ thrown, after = ⟨some thrown, some (recordedText thrown.2)⟩)
      (record jib.context jsException) state := by
  obtain ⟨thrown, isThrown, rfl⟩ := Option.map_eq_some_iff.mp threw.2
  apply (ensures_record isThrown).mono
  rintro reply _ ⟨rfl, rfl⟩
  exact ⟨rfl, thrown, rfl⟩

/-- A call that threw gives `nil`. -/
def GivesNothing (reply : Option α) (after : Failing) : Prop :=
  after.thrown.isSome = true → reply = none

theorem ensures_callConverted (function : JibFunction) (given : Nat)
    (convertedArgs : List (Option JSValueRef)) {state : Failing} (fresh : state.thrown = none) :
    Ensures jib (fun reply after => GivesNothing reply after ∧ Recorded after)
      (callConverted jib function given convertedArgs) state := by
  unfold callConverted
  split
  · refine ⟨trivial, ?_⟩
    rintro _ _ rfl
    exact ⟨fun _ => rfl, recorded_of_thrown_eq_none fresh⟩
  · refine ⟨trivial, ?_⟩
    rintro ⟨jsValue, exception⟩ called threw
    cases exception with
    | none =>
        have nothing := thrown_of_threw threw
        exact ⟨by simp [GivesNothing, nothing], recorded_of_thrown_eq_none nothing⟩
    | some jsException =>
        apply (ensures_record_of_threw threw).mono
        rintro reply _ ⟨rfl, thrown, rfl⟩
        exact ⟨fun _ => rfl, by simp [Recorded]⟩

theorem ensures_callJSValue (function : JibFunction) (arguments : List (Option JibUnknown))
    {state : Failing} (fresh : state.thrown = none) :
    Ensures jib (fun reply after => GivesNothing reply after ∧ Recorded after)
      (callJSValue jib function arguments) state := by
  have converts : Light (mapEach (convertArgument jib) arguments) :=
    Uses.mapEach (light_convertArgument jib) arguments
  refine ensures_unlessReleased none (Satisfies.locked (Satisfies.bind
    ((ensures_quiet converts.quiet state).mono ?_)))
  rintro convertedArgs _ rfl
  exact ensures_callConverted function arguments.length convertedArgs fresh

theorem ensures_eval (script : HalfHitch) {state : Failing} (fresh : state.thrown = none) :
    Ensures jib (fun reply after =>
        (script.raw.isSome = true → (reply = none ↔ after.thrown.isSome = true)) ∧
          Recorded after)
      (eval jib script) state := by
  refine ensures_unlessReleased none (Satisfies.locked (ensures_jsString script ?_ ?_))
  · intro _ jsScript
    refine ⟨trivial, ?_⟩
    rintro ⟨_, exception⟩ ran threw
    cases exception with
    | none =>
        have nothing := thrown_of_threw threw
        refine ⟨trivial, ?_⟩
        rintro _ _ rfl
        exact ⟨by simp [nothing], recorded_of_thrown_eq_none nothing⟩
    | some jsException =>
        refine Satisfies.bind (Satisfies.bind ((ensures_record_of_threw threw).mono ?_))
        rintro recorded _ ⟨rfl, thrown, rfl⟩
        refine ⟨trivial, ?_⟩
        rintro _ _ rfl
        exact ⟨by simp, by simp [Recorded]⟩
  · intro noMemory
    exact ⟨by simp [noMemory], recorded_of_thrown_eq_none fresh⟩

theorem ensures_setGlobalValue (name : HalfHitch) (value : JSValueRef) (state : Failing) :
    Ensures jib (fun reply after => (reply = none ↔ after.thrown.isSome = true) ∧ Recorded after)
      (setGlobalValue jib name value) state := by
  refine ensures_unlessReleased none (Satisfies.locked (Satisfies.bind
    ((ensures_createJSString name state).mono ?_)))
  rintro string _ rfl
  refine ⟨trivial, ?_⟩
  intro exception ran threw
  cases exception with
  | none =>
      have nothing := thrown_of_threw threw
      refine ⟨trivial, ?_⟩
      rintro _ _ rfl
      exact ⟨by simp [nothing], recorded_of_thrown_eq_none nothing⟩
  | some jsException =>
      refine Satisfies.bind (Satisfies.bind ((ensures_record_of_threw threw).mono ?_))
      rintro recorded _ ⟨rfl, thrown, rfl⟩
      refine ⟨trivial, ?_⟩
      rintro _ _ rfl
      exact ⟨by simp, by simp [Recorded]⟩

/-! ## Lookups -/

theorem ensures_acceptDefined {before state : Failing}
    {evaluated : Option JSValueRef × Option JSValueRef}
    (threw : Threw before state evaluated.2) :
    Ensures jib (fun reply after => after = state ∧ (reply.isSome = true → after.thrown = none))
      (acceptDefined jib evaluated) state := by
  obtain ⟨jsValue, exception⟩ := evaluated
  cases exception with
  | some jsException => cases jsValue <;> exact ⟨rfl, nofun⟩
  | none =>
      have nothing := thrown_of_threw threw
      cases jsValue with
      | none => exact ⟨rfl, nofun⟩
      | some jsValue =>
          apply (ensures_quiet (light_acceptDefined jib (some jsValue, none)).quiet state).mono
          rintro reply _ rfl
          exact ⟨rfl, fun _ => nothing⟩

/-- What the second attempt throws is not recorded. -/
theorem ensures_resolveParenthesized (hitch : HalfHitch) (state : Failing) :
    Ensures jib (fun reply after => after.exception = state.exception ∧
        (reply.isSome = true → after.thrown = none))
      (resolveParenthesized jib hitch) state := by
  apply ensures_hitchJSString_ofBytes _
  intro jsScript
  refine ⟨trivial, ?_⟩
  intro evaluated ran threw
  change Ensures jib _ (acceptDefined jib evaluated >>= fun _ => _) ran
  refine Satisfies.bind ((ensures_acceptDefined threw).mono ?_)
  rintro reply _ ⟨rfl, accepted⟩
  refine ⟨trivial, ?_⟩
  rintro _ _ rfl
  exact ⟨threw.1, accepted⟩

/-- The third attempt records what it throws and then gives no value. -/
theorem ensures_resolveUnmodified (hitch : HalfHitch) (state : Failing) :
    Ensures jib (fun reply after =>
        (hitch.raw = none → reply = none ∧ after = state) ∧
          (hitch.raw.isSome = true →
            after.thrown = none ∧ after.exception = state.exception ∨
              reply = none ∧ ∃ thrown, after = ⟨some thrown, some (recordedText thrown.2)⟩))
      (resolveUnmodified jib hitch) state := by
  refine ensures_jsString hitch ?_ fun noMemory => ⟨fun _ => ⟨rfl, rfl⟩, by simp [noMemory]⟩
  intro hasMemory jsScript
  have noAbsence : hitch.raw ≠ none := Option.isSome_iff_ne_none.mp hasMemory
  refine ⟨trivial, ?_⟩
  rintro ⟨jsValue, exception⟩ ran threw
  cases exception with
  | none =>
      refine ⟨trivial, ?_⟩
      rintro _ _ rfl
      exact ⟨fun noMemory => absurd noMemory noAbsence,
        fun _ => .inl ⟨thrown_of_threw threw, threw.1⟩⟩
  | some jsException =>
      change Ensures jib _ (record jib.context jsException >>= fun _ => _) ran
      refine Satisfies.bind ((ensures_record_of_threw threw).mono ?_)
      rintro reply _ ⟨rfl, thrown, rfl⟩
      refine ⟨trivial, ?_⟩
      rintro _ _ rfl
      exact ⟨fun noMemory => absurd noMemory noAbsence, fun _ => .inr ⟨rfl, thrown, rfl⟩⟩

/-- How a lookup ends.  Without memory behind the text only its parentheses are
evaluated, and what these throw is no failure of the text. -/
structure Looked (jib : JibFields) (exec : HalfHitch) (reply : Option JSValueRef)
    (after : Failing) : Prop where
  cleared : exec.raw = none ∨ after.thrown = none → after.exception = none
  failed : exec.raw.isSome = true → ∀ thrown ∈ after.thrown,
    reply = some jib.undefined ∧ after.exception = some (recordedText thrown.2)

theorem looked_of_thrown_eq_none {exec : HalfHitch} {reply : Option JSValueRef}
    {after : Failing} (nothing : after.thrown = none) (clear : after.exception = none) :
    Looked jib exec reply after where
  cleared := fun _ => clear
  failed := by simp [nothing]

theorem ensures_resolveEvaluated (hitch : HalfHitch) {state : Failing}
    (clear : state.exception = none) :
    Ensures jib (Looked jib hitch) (resolveEvaluated jib hitch) state := by
  refine Satisfies.bind ((ensures_resolveParenthesized hitch state).mono ?_)
  rintro parenthesized tried ⟨kept, accepted⟩
  rw [clear] at kept
  cases parenthesized with
  | some value => exact looked_of_thrown_eq_none (accepted rfl) kept
  | none =>
      refine Satisfies.bind ((ensures_resolveUnmodified hitch tried).mono ?_)
      rintro unmodified after ⟨without, withMemory⟩
      cases hasMemory : hitch.raw with
      | none =>
          obtain ⟨rfl, rfl⟩ := without hasMemory
          exact ⟨fun _ => kept, by simp [hasMemory]⟩
      | some memory =>
          rcases withMemory (by simp [hasMemory]) with ⟨nothing, keptOn⟩ | ⟨rfl, thrown, rfl⟩
          · have looked : ∀ reply, Looked jib hitch reply after := fun _ =>
              looked_of_thrown_eq_none nothing (keptOn.trans kept)
            cases unmodified <;> exact looked _
          · exact ⟨by simp [hasMemory], by simp⟩

theorem ensures_resolve (hitch : HalfHitch) {state : Failing} (fresh : state.thrown = none) :
    Ensures jib (Looked jib hitch) (resolve jib hitch) state := by
  refine ⟨trivial, ?_⟩
  rintro _ _ rfl
  change Ensures jib _ (resolveGlobal jib hitch >>= fun _ => _) _
  refine Satisfies.bind ((ensures_quiet (light_resolveGlobal jib hitch).quiet _).mono ?_)
  rintro value _ rfl
  cases value with
  | some value => exact looked_of_thrown_eq_none fresh rfl
  | none => exact ensures_resolveEvaluated hitch rfl

/-! ## Readers of `undefined` -/

theorem ensures_jsValueToHitch_undefined (state : Failing) :
    Ensures jib (fun reply _ => reply = some undefinedHitch)
      (jsValueToHitch jib.context (some jib.undefined)) state :=
  (ensures_jsValueToHitch fun _ _ converts => converts.2.1 rfl).mono fun _ _ ends => ends.1

theorem ensures_jsValueToJson_undefined (state : Failing) :
    Ensures jib (fun reply _ => reply = none)
      (jsValueToJson jib.context (some jib.undefined)) state := by
  refine ⟨trivial, ?_⟩
  rintro string _ ⟨rfl, isNone⟩
  obtain rfl := isNone rfl
  exact rfl

/-- Readers that test for `undefined` first. -/
theorem ensures_test_undefined {absent : α} {otherwise : Operation α} (state : Failing) :
    Ensures jib (fun reply _ => reply = absent)
      (do if ← jsValueIsUndefined jib.context jib.undefined then return absent else otherwise)
      state := by
  refine ⟨trivial, ?_⟩
  rintro isUndefined _ ⟨rfl, isTrue⟩
  obtain rfl := isTrue rfl
  exact rfl

/-! ## Public operations -/

/-- The reader gives a value for `undefined`. -/
def Reader.showsUndefined : Reader D → Bool
  | .hitch => true
  | .halfhitch => true
  | .string => true
  | .date parse => (parse undefinedHitch).isSome
  | _ => false

namespace PublicOperation

/-- The script that the operation is given. -/
def script? : PublicOperation D → Option HalfHitch
  | .eval script => some script
  | .subscript _ exec => some exec
  | _ => none

def isSubscript : PublicOperation D → Bool
  | .subscript .. => true
  | _ => false

/-- The reply only tells whether the operation has succeeded. -/
def tellsSuccess : PublicOperation D → Bool
  | .eval _ => true
  | .setGlobalValue .. => true
  | .setGlobal .. => true
  | .callNone .. => true
  | _ => false

/-- The reply to a failure is not `nil`. -/
def hidesFailure : PublicOperation D → Bool
  | .subscript reader _ => reader.showsUndefined
  | .callNone .. => true
  | _ => false

/-- What the script, function or setter of the operation threw.  Without memory
behind it there is no script, and a lookup only evaluates the parentheses; what
is set on a new function has no setter of a script. -/
def thrown (operation : PublicOperation D) (after : Failing) :
    Option (JSValueRef × Option Bytes) :=
  match operation with
  | .eval script => if script.raw.isSome then after.thrown else none
  | .subscript _ exec => if exec.raw.isSome then after.thrown else none
  | .newFunction .. => none
  | _ => after.thrown

end PublicOperation

/-- How a typed subscript ends. -/
structure Reader.Ends (reader : Reader D) (exec : HalfHitch) (reply : Reply D)
    (after : Failing) : Prop where
  cleared : exec.raw = none ∨ after.thrown = none → after.exception = none
  failed : exec.raw.isSome = true → ∀ thrown ∈ after.thrown,
    reply.isNil = !reader.showsUndefined ∧ after.exception = some (recordedText thrown.2)

/-- How a reader works where a script throws: its conversion makes `shown` of
`undefined`. -/
structure Reader.ReadsUndefined (jib : JibFields) (reader : Reader D) (α : Type) (absent : α)
    (convert : Option JSValueRef → Operation α) (wrap : α → Reply D) (shown : α) : Prop where
  readsOnly : ∀ value, ReadsOnly (convert value)
  converts : ∀ state, Ensures jib (fun reply _ => reply = shown)
    (convert (some jib.undefined)) state
  isNil : (wrap shown).isNil = !reader.showsUndefined
  subscript : ∀ exec,
    reader.subscript jib exec =
      (typedSubscript jib absent convert exec >>= fun value => .done (wrap value))

theorem Reader.readsUndefined (jib : JibFields) (reader : Reader D) :
    ∃ α absent convert wrap shown, reader.ReadsUndefined jib α absent convert wrap shown := by
  have hitch := readsOnly_jsValueToHitch jib.context
  cases reader with
  | decoded decode =>
      exact ⟨_, _, _, .decoded, none,
        fun value => (looksOnly_jsValueToDecodable jib.context value decode).readsOnly,
        fun _ => ensures_test_undefined _, rfl, fun _ => rfl⟩
  | function =>
      exact ⟨_, _, _, .function, none, readsOnly_jsValueToFunction jib.context,
        fun _ => ensures_test_undefined _, rfl, fun _ => rfl⟩
  | hitch =>
      exact ⟨_, _, _, .text, some undefinedHitch, hitch, ensures_jsValueToHitch_undefined, rfl,
        fun _ => rfl⟩
  | halfhitch =>
      exact ⟨_, _, _, .text, some undefinedHitch, hitch, ensures_jsValueToHitch_undefined, rfl,
        fun _ => rfl⟩
  | string =>
      exact ⟨_, _, _, .text, some undefinedHitch, hitch, ensures_jsValueToHitch_undefined, rfl,
        fun _ => rfl⟩
  | date parse =>
      refine ⟨_, _, _, fun text => .decoded (text.bind parse), some undefinedHitch, hitch,
        ensures_jsValueToHitch_undefined, ?_, fun _ => bind_assoc _ _ _⟩
      cases parsed : parse undefinedHitch <;> simp [Reply.isNil, showsUndefined, parsed]
  | double =>
      exact ⟨_, _, _, .double, none,
        fun value => (looksOnly_jsValueToDouble jib.context value).readsOnly,
        fun _ => ensures_test_undefined _, rfl, fun _ => rfl⟩
  | int =>
      exact ⟨_, _, _, .int, .ok none,
        fun value => (looksOnly_jsValueToInt jib.context value).readsOnly,
        fun _ => ensures_test_undefined _, rfl, fun _ => rfl⟩
  | bool =>
      exact ⟨_, _, _, .bool, none,
        fun value => (looksOnly_jsValueToBool jib.context value).readsOnly,
        fun _ => ensures_test_undefined _, rfl, fun _ => rfl⟩
  | json =>
      exact ⟨_, _, _, .text, none,
        fun value => (looksOnly_jsValueToJson jib.context value).readsOnly,
        ensures_jsValueToJson_undefined, rfl, fun _ => rfl⟩

/-- A typed subscript whose script throws reads `undefined`. -/
theorem Reader.ensures_subscript (reader : Reader D) (exec : HalfHitch) {state : Failing}
    (fresh : state.thrown = none) :
    Ensures jib (reader.Ends exec) (reader.subscript jib exec) state := by
  obtain ⟨_, absent, convert, wrap, shown, reads⟩ := reader.readsUndefined jib
  rw [reads.subscript]
  refine Satisfies.bind (ensures_unlessReleased absent (Satisfies.locked (Satisfies.bind
    ((ensures_resolve exec fresh).mono ?_))))
  intro value resolved looked
  by_cases isUndefined : value = some jib.undefined
  · subst isUndefined
    apply (Satisfies.and (ensures_quiet (reads.readsOnly _).quiet resolved)
      (reads.converts resolved)).mono
    rintro reply _ ⟨rfl, rfl⟩
    refine ⟨looked.cleared, ?_⟩
    intro hasMemory thrown threw
    exact ⟨reads.isNil, (looked.failed hasMemory thrown threw).2⟩
  · apply (ensures_quiet (reads.readsOnly value).quiet resolved).mono
    rintro reply _ rfl
    refine ⟨looked.cleared, ?_⟩
    intro hasMemory thrown threw
    exact absurd (looked.failed hasMemory thrown threw).1 isUndefined

/-- A typed call gives `nil` when the function throws, and records what it
throws. -/
theorem Reader.ensures_call (reader : Reader D) (function : JibFunction)
    (arguments : List (Option JibUnknown)) {state : Failing} (fresh : state.thrown = none) :
    Ensures jib (fun reply after =>
        (after.thrown.isSome = true → reply.isNil = true) ∧ Recorded after)
      (reader.call jib function arguments) state := by
  obtain ⟨_, absent, convert, wrap, conversion⟩ := reader.conversion jib
  rw [conversion.call]
  refine Satisfies.bind (Satisfies.bind ((ensures_callJSValue function arguments fresh).mono ?_))
  rintro value called ⟨givesNothing, isRecorded⟩
  cases value with
  | none =>
      rw [conversion.convert_none]
      exact ⟨fun _ => conversion.absent_isNil, isRecorded⟩
  | some value =>
      apply (ensures_quiet (conversion.readsOnly _).quiet called).mono
      rintro reply _ rfl
      exact ⟨fun threw => (nomatch givesNothing threw), isRecorded⟩

namespace PublicOperation

/-- What the operation makes of a failure: it tells what was thrown, and what
it gives for it is `nil` unless the operation hides failures. -/
structure Ends (operation : PublicOperation D) (reply : Reply D) (after : Failing) : Prop where
  tells : TellsException operation.isSubscript (operation.thrown after) after.exception
  isNil : (operation.thrown after).isSome = true → reply.isNil = !operation.hidesFailure
  threw : operation.tellsSuccess = true → (∀ script ∈ operation.script?, script.bytes ≠ []) →
    reply.isNil = true → (operation.thrown after).isSome = true

theorem described_of_recorded {after : Failing} (recorded : Recorded after) :
    Failure.Described after.thrown after.exception := by
  intro value text threw
  exact recorded (value, some text) threw

theorem ends_of_reported {operation : PublicOperation D} {after : Failing} {value : Option Bool}
    (reported : (value = none ↔ after.thrown.isSome = true) ∧ Recorded after)
    (thrown : operation.thrown after = after.thrown)
    (notSubscript : operation.isSubscript = false) (hides : operation.hidesFailure = false) :
    operation.Ends (.success value) after where
  tells := ⟨thrown ▸ described_of_recorded reported.2, by simp [notSubscript]⟩
  isNil := by
    intro threw
    rw [thrown] at threw
    simp [Reply.isNil, reported.1.mpr threw, hides]
  threw := by
    intro _ _ isNil
    rw [thrown]
    exact reported.1.mp (by simpa [Reply.isNil] using isNil)

/-- Operations that throw nothing and tell nothing of success. -/
theorem ends_of_silent {operation : PublicOperation D} {reply : Reply D} {after : Failing}
    (thrown : operation.thrown after = none) (notSubscript : operation.isSubscript = false)
    (silent : operation.tellsSuccess = false) : operation.Ends reply after where
  tells := ⟨by simp [thrown], by simp [notSubscript]⟩
  isNil := by simp [thrown]
  threw := by simp [silent]

theorem ensures_program (operation : PublicOperation D) (before : Failing) :
    Ensures jib operation.Ends (operation.program jib) before.enter := by
  cases operation with
  | eval script =>
      refine Satisfies.bind ((ensures_eval script rfl).mono ?_)
      rintro reply after ⟨reported, recorded⟩
      cases hasMemory : script.raw with
      | none =>
          have nothing : (eval script : PublicOperation D).thrown after = none := by
            simp [PublicOperation.thrown, hasMemory]
          refine ⟨⟨by simp [nothing], nofun⟩, by simp [nothing], ?_⟩
          intro _ nonEmpty
          have isSome := HalfHitch.isSome_raw_of_bytes_ne_nil (nonEmpty script rfl)
          simp [hasMemory] at isSome
      | some memory =>
          have thrown : (eval script : PublicOperation D).thrown after = after.thrown := by
            simp [PublicOperation.thrown, hasMemory]
          exact ends_of_reported ⟨reported (by simp [hasMemory]), recorded⟩ thrown rfl rfl
  | setGlobalValue name value =>
      refine Satisfies.bind ((ensures_setGlobalValue name value _).mono ?_)
      exact fun reply after reported => ends_of_reported reported rfl rfl rfl
  | setGlobal name value =>
      refine Satisfies.bind ((ensures_setGlobalValue name _ _).mono ?_)
      exact fun reply after reported => ends_of_reported reported rfl rfl rfl
  | newFunction name body =>
      apply Satisfies.mono (satisfies_of_preserved (fun _ _ _ _ _ _ => trivial)
        (fun _ _ _ => trivial) _ trivial)
      exact fun reply after _ => ends_of_silent rfl rfl rfl
  | garbageCollect =>
      refine Satisfies.bind (ensures_unlessReleased () ?_)
      refine ⟨trivial, ?_⟩
      rintro _ _ rfl
      exact ends_of_silent rfl rfl rfl
  | subscript reader exec =>
      apply (reader.ensures_subscript exec rfl).mono
      intro reply after ends
      cases hasMemory : exec.raw with
      | none =>
          have nothing : (subscript reader exec).thrown after = none := by
            simp [PublicOperation.thrown, hasMemory]
          exact ⟨⟨by simp [nothing], fun _ _ => ends.cleared (.inl hasMemory)⟩,
            by simp [nothing], nofun⟩
      | some memory =>
          have thrown : (subscript reader exec).thrown after = after.thrown := by
            simp [PublicOperation.thrown, hasMemory]
          have failed := ends.failed (by simp [hasMemory])
          refine ⟨⟨?_, ?_⟩, ?_, nofun⟩
          · rw [thrown]
            exact described_of_recorded fun pair threw => (failed pair threw).2
          · rw [thrown]
            exact fun _ nothing => ends.cleared (.inr nothing)
          · rw [thrown]
            intro threw
            obtain ⟨pair, isThrown⟩ := Option.isSome_iff_exists.mp threw
            exact (failed pair isThrown).1
  | call reader function arguments =>
      apply (reader.ensures_call function arguments rfl).mono
      rintro reply after ⟨isNil, recorded⟩
      exact ⟨⟨described_of_recorded recorded, nofun⟩, isNil, nofun⟩
  | callNone function arguments =>
      refine Satisfies.bind (Satisfies.bind
        ((ensures_callJSValue function arguments rfl).mono ?_))
      rintro value after ⟨_, recorded⟩
      exact ⟨⟨described_of_recorded recorded, nofun⟩, fun _ => rfl, nofun⟩

end PublicOperation

/-! ## An engine whose scripts throw -/

/-- `"Error"`. -/
def errorText : Bytes := "Error".toUTF8.toList

/-- Reference 0 is `undefined`; everything that runs throws reference 1. -/
def errorHandle : Handler interface Failing
  | .setException text, state => ((), { state with exception := text })
  | .jsEvaluateScript .., state => ((none, some 1), ⟨some (1, some errorText), state.exception⟩)
  | .jsObjectCallAsFunction .., state =>
      ((none, some 1), ⟨some (1, some errorText), state.exception⟩)
  | .jsObjectSetProperty .., state => (some 1, ⟨some (1, some errorText), state.exception⟩)
  | .jsValueToStringCopy _ value, state =>
      (some ⟨0, if value = 0 then undefinedHitch else errorText⟩, state)
  | command, state => (emptyAnswer command, state)

/-- What was thrown is reference 1. -/
def ThrewError (state : Failing) : Prop :=
  ∀ thrown ∈ state.thrown, thrown = (1, some errorText)

theorem errorHandle_follows (command : Command) {state : Failing} (threw : ThrewError state) :
    throwing someJib command state (errorHandle command state).1 (errorHandle command state).2 ∧
      ThrewError (errorHandle command state).2 := by
  have error : ∀ exception, ThrewError ⟨some (1, some errorText), exception⟩ := by
    simp [ThrewError]
  cases command with
  | jsValueToStringCopy context value =>
      refine ⟨⟨rfl, ?_, ?_⟩, threw⟩
      · rintro rfl
        rfl
      · rintro thrown isThrown rfl
        obtain rfl := threw thrown isThrown
        rfl
  | jsEvaluateScript => exact ⟨⟨rfl, rfl⟩, error _⟩
  | jsObjectCallAsFunction => exact ⟨⟨rfl, rfl⟩, error _⟩
  | jsObjectSetProperty => exact ⟨⟨rfl, rfl⟩, error _⟩
  | setException => exact ⟨rfl, threw⟩
  | readReleased => exact ⟨⟨rfl, rfl⟩, threw⟩
  | jsStringCreateWithUTF8CString => exact ⟨⟨rfl, rfl⟩, threw⟩
  | jsStringGetMaximumUTF8CStringSize => exact ⟨⟨rfl, Nat.lt_succ_self _⟩, threw⟩
  | jsStringGetUTF8CString => exact ⟨⟨rfl, fun _ => rfl⟩, threw⟩
  | jsValueIsUndefined context value =>
      refine ⟨⟨rfl, ?_⟩, threw⟩
      rintro rfl
      rfl
  | jsValueCreateJSONString => exact ⟨⟨rfl, fun _ => rfl⟩, threw⟩
  | _ => exact ⟨rfl, threw⟩

end Jib.JSC
