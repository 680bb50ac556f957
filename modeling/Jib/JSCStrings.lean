import Jib.JSCLifetimes
import Jib.JSCPublicOperations
import Jib.ResourceLedgers
import Jib.ValueReadings

/-!
# Strings of the JavaScriptCore backend

Strings that the engine makes for the Swift side are given back exactly once on
every path.  `NULL` is counted like a string: a conversion that fails gives one,
and the release that follows takes it.
-/

namespace Jib.JSC

open CommandProgram Program ResourceLedgers

/-! ## The ledger of strings -/

/-- A string that is there. -/
def stringHolding (string : Option JSStringRef) : Holdings (Option JSStringRef) :=
  match string with
  | some string => Pi.single (some string) 1
  | none => 0

theorem stringHolding_none (string : Option JSStringRef) : stringHolding string none = 0 := by
  cases string with
  | none => rfl
  | some string => simp [stringHolding]

/-- `JSStringRelease` takes a string or `NULL`.  What `JSValueToStringCopy` gives
is always released, what the other two functions give only when there is a
string.  `JSValueMakeString` gives a value. -/
def strings : Ledger interface (Option JSStringRef) where
  takes
    | .jsStringRelease string => Pi.single string 1
    | _ => 0
  gives
    | .jsStringCreateWithUTF8CString _, string => stringHolding string
    | .jsValueToStringCopy _ _, string => Pi.single string 1
    | .jsValueCreateJSONString _ _, string => stringHolding string
    | _, _ => 0
  Answers
    | .jsValueMakeString _ _, value => value.isSome = true
    | _, _ => True
  Allowed _ := True

/-- The commands that give or take strings. -/
def Command.handlesStrings : Command → Bool
  | .jsStringRelease _ => true
  | .jsStringCreateWithUTF8CString _ => true
  | .jsValueToStringCopy _ _ => true
  | .jsValueCreateJSONString _ _ => true
  | _ => false

variable {α β D State : Type} {held extra : Holdings (Option JSStringRef)}
  {post : α → Holdings (Option JSStringRef) → Prop}

/-- A command that does not handle strings leaves what is in hand. -/
theorem balances_other {command : Command} {next : Answer command → Operation α}
    (other : command.handlesStrings = false)
    (balances : ∀ answer, strings.Answers command answer →
      strings.Balances held post (next answer)) :
    strings.Balances held post (.call command next) := by
  have takesNothing : strings.takes command = 0 := by
    cases command <;> first | rfl | cases other
  have givesNothing : ∀ answer, strings.gives command answer = 0 := by
    intro answer
    cases command <;> first | rfl | cases other
  apply balances_call trivial held
  · rw [takesNothing, add_zero]
  · intro answer answers
    rw [givesNothing, add_zero]
    exact balances answer answers

theorem balances_step {command : Command} {next : Answer command → Operation α}
    (other : command.handlesStrings = false)
    (balances : ∀ answer, strings.Balances held post (next answer)) :
    strings.Balances held post ((.call command .done : Operation (Answer command)) >>= next) :=
  balances_other other fun answer _ => balances answer

theorem balances_query {command : Command} (other : command.handlesStrings = false) :
    strings.Balances 0 Spent (.call command .done : Operation (Answer command)) :=
  balances_other other fun _ _ => balances_done rfl

theorem balances_if {test : Operation Bool} {yes no : Operation α}
    (tests : strings.Balances 0 Spent test) (ifTrue : strings.Balances 0 post yes)
    (ifFalse : strings.Balances 0 post no) :
    strings.Balances 0 post (test >>= fun answer => if answer then yes else no) := by
  apply tests.seq
  rintro answer _ rfl
  cases answer
  · exact ifFalse
  · exact ifTrue

/-- A part of a program that does not handle strings. -/
theorem balances_of_uses {program : Operation α}
    (uses : program.Uses fun command : Command => command.handlesStrings = false) :
    strings.Balances held (fun _ left => left = held) program := by
  induction program with
  | done value => exact balances_done rfl
  | acquire next => exact uses.elim
  | release next => exact uses.elim
  | call command next ih => exact balances_other uses.1 fun answer _ => ih answer (uses.2 answer)

theorem balances_jsStringRelease (string : Option JSStringRef) :
    strings.Balances (Pi.single string 1) Spent (jsStringRelease string) := by
  apply balances_call trivial 0
  · exact (zero_add _).symm
  · intro _ _
    exact balances_done (zero_add 0)

/-- A string that is used and then released. -/
theorem balances_thenRelease (string : Option JSStringRef) {use : Operation β} (result : β → α)
    (uses : strings.Balances 0 Spent use) :
    strings.Balances (Pi.single string 1) Spent
      (use >>= fun value => jsStringRelease string >>= fun _ => .done (result value)) := by
  rw [← add_zero (Pi.single string 1)]
  apply uses.bind
  rintro value _ rfl
  rw [add_zero]
  apply (balances_jsStringRelease string).seq
  rintro _ _ rfl
  exact balances_done rfl

/-! ## Strings in use -/

section Use

variable {callback : JSStringRef → Operation (Option α)}
  {ends : Option α → Holdings (Option JSStringRef) → Prop} (absent : ends none 0)
  (uses : ∀ string, strings.Balances (Pi.single (some string) 1) ends (callback string))
include absent uses

theorem balances_withJSString (memory : Bytes) :
    strings.Balances 0 ends (withJSString memory callback) := by
  apply balances_call trivial 0 rfl
  intro string _
  rw [zero_add]
  cases string with
  | none => exact balances_done absent
  | some string => exact uses string

theorem balances_hitchJSString (hitch : Hitch) :
    strings.Balances 0 ends (hitchJSString hitch callback) := by
  unfold hitchJSString
  split
  · split
    · exact balances_withJSString absent uses _
    · exact balances_done absent
  · exact balances_done absent

theorem balances_jsString (slice : HalfHitch) :
    strings.Balances 0 ends (jsString slice callback) := by
  unfold jsString
  split
  · split
    · exact balances_withJSString absent uses _
    · exact balances_hitchJSString absent uses _
  · exact balances_done absent

end Use

theorem balances_createJSString (slice : HalfHitch) :
    strings.Balances 0 (Yielding stringHolding) (createJSString slice) :=
  balances_jsString rfl (fun _ => balances_done rfl) slice

/-! ## Readers -/

theorem balances_jsStringToHitch (string : Option JSStringRef) :
    strings.Balances 0 Spent (jsStringToHitch string) := by
  cases string with
  | none => exact balances_done rfl
  | some string =>
      apply balances_of_uses
      simp [jsStringToHitch, Command.handlesStrings]

variable (context : JSGlobalContextRef)

theorem balances_jsValueToJson (value : Option JSValueRef) :
    strings.Balances 0 Spent (jsValueToJson context value) := by
  cases value with
  | none => exact balances_done rfl
  | some value =>
      apply balances_call trivial 0 rfl
      intro string _
      rw [zero_add]
      cases string with
      | none => exact balances_done rfl
      | some string =>
          exact balances_thenRelease (some string) some (balances_jsStringToHitch (some string))

theorem balances_jsValueToHitch (value : Option JSValueRef) :
    strings.Balances 0 Spent (jsValueToHitch context value) := by
  cases value with
  | none => exact balances_done rfl
  | some value =>
      apply balances_call trivial 0 rfl
      intro string _
      rw [zero_add]
      exact balances_thenRelease string some (balances_jsStringToHitch string)

theorem balances_record (jsException : JSValueRef) :
    strings.Balances 0 Spent (record context jsException : Operation (Option α)) := by
  apply (balances_jsValueToHitch context (some jsException)).seq
  rintro text _ rfl
  exact balances_step rfl fun _ => balances_done rfl

theorem balances_jsValueToDecodable (decode : Bytes → Option D) (value : Option JSValueRef) :
    strings.Balances 0 Spent (jsValueToDecodable context decode value) := by
  cases value with
  | none => exact balances_done rfl
  | some value =>
      apply balances_if
      · exact balances_query rfl
      · exact balances_done rfl
      · apply (balances_jsValueToJson context (some value)).seq
        rintro json _ rfl
        cases json <;> exact balances_done rfl

/-- Readers of one kind of value look whether it is of that kind. -/
theorem balances_ifKind {value : JSValueRef} {test : Operation Bool} {absent : α}
    {convert : Operation α} (tests : strings.Balances 0 Spent test)
    (converts : strings.Balances 0 Spent convert) :
    strings.Balances 0 Spent (jsValueIsUndefined context value >>= fun isUndefined =>
      if isUndefined then .done absent
      else test >>= fun isKind => if isKind then convert else .done absent) := by
  apply balances_if
  · exact balances_query rfl
  · exact balances_done rfl
  · exact balances_if tests converts (balances_done rfl)

theorem balances_jsValueToFunction (value : Option JSValueRef) :
    strings.Balances 0 Spent (jsValueToFunction context value) := by
  cases value with
  | none => exact balances_done rfl
  | some value =>
      apply balances_ifKind
      · exact balances_query rfl
      · apply balances_of_uses
        simp [jibFunctionOfObject, Command.handlesStrings]

theorem balances_jsValueToDouble (value : Option JSValueRef) :
    strings.Balances 0 Spent (jsValueToDouble context value) := by
  cases value with
  | none => exact balances_done rfl
  | some value =>
      apply balances_ifKind
      · exact balances_query rfl
      · exact balances_step rfl fun _ => balances_done rfl

theorem balances_jsValueToInt (value : Option JSValueRef) :
    strings.Balances 0 Spent (jsValueToInt context value) := by
  cases value with
  | none => exact balances_done rfl
  | some value =>
      apply balances_ifKind
      · exact balances_query rfl
      · exact balances_step rfl fun _ => balances_done rfl

theorem balances_jsValueToBool (value : Option JSValueRef) :
    strings.Balances 0 Spent (jsValueToBool context value) := by
  cases value with
  | none => exact balances_done rfl
  | some value =>
      apply balances_ifKind
      · exact balances_query rfl
      · exact balances_step rfl fun _ => balances_done rfl

/-! ## Passing values -/

theorem balances_createStringJibValue (string : Option JSStringRef) :
    strings.Balances (stringHolding string) Spent (createStringJibValue context string) := by
  cases string with
  | none => exact balances_query rfl
  | some string =>
      apply balances_other rfl
      intro result isSome
      cases result with
      | none => cases isSome
      | some result =>
          apply (balances_jsStringRelease (some string)).seq
          rintro _ _ rfl
          exact balances_done rfl

theorem balances_halfHitchToJSValue (value : HalfHitch) :
    strings.Balances 0 Spent (halfHitchToJSValue context value) := by
  apply balances_jsString rfl
  intro string
  apply balances_step rfl
  intro result
  apply (balances_jsStringRelease (some string)).seq
  rintro _ _ rfl
  exact balances_done rfl

theorem balances_someQuery {command : Command} (other : command.handlesStrings = false) :
    strings.Balances 0 Spent (some <$> (.call command .done : Operation (Answer command))) :=
  balances_other other fun _ _ => balances_done rfl

/-- A string is made, and the value of it. -/
theorem balances_createString {string : Operation (Option JSStringRef)}
    (creates : strings.Balances 0 (Yielding stringHolding) string) :
    strings.Balances 0 Spent (do
      let string ← string
      some <$> createStringJibValue context string) := by
  apply creates.seq
  rintro string _ rfl
  apply (balances_createStringJibValue context string).seq
  rintro value _ rfl
  exact balances_done rfl

theorem balances_createArray (hitches : List Hitch) :
    strings.Balances 0 Spent
      (mapEach (fun hitch => halfHitchToJSValue context hitch.halfhitch) hitches) := by
  induction hitches with
  | nil => exact balances_done rfl
  | cons hitch rest ih =>
      apply (balances_halfHitchToJSValue context hitch.halfhitch).seq
      rintro first _ rfl
      apply ih.seq
      rintro others _ rfl
      exact balances_done rfl

theorem balances_createContextValue (argument : JibUnknown) :
    strings.Balances 0 Spent (argument.createContextValue context) := by
  cases argument with
  | jibFunction function =>
      obtain ⟨jsClass, objectRef, bodyPtr⟩ := function
      cases objectRef with
      | none => exact balances_someQuery rfl
      | some objectRef => exact balances_done rfl
  | hitchArray hitches =>
      apply (balances_createArray context hitches).seq
      rintro arguments _ rfl
      exact balances_query rfl
  | string bytes => exact balances_createString context (balances_createJSString _)
  | staticString bytes => exact balances_createString context (balances_createJSString _)
  | hitch text =>
      exact balances_createString context
        (balances_hitchJSString rfl (fun _ => balances_done rfl) text)
  | halfHitch slice => exact balances_createString context (balances_createJSString slice)
  | int value => exact balances_someQuery rfl
  | uint value => exact balances_someQuery rfl
  | double value => exact balances_someQuery rfl
  | float value => exact balances_someQuery rfl
  | bool value => exact balances_someQuery rfl

theorem balances_createJibValue (jib : JibFields) (argument : JibUnknown) :
    strings.Balances 0 Spent (argument.createJibValue jib) := by
  have inContext := balances_createContextValue jib.context argument
  cases argument with
  | bool value => exact balances_done rfl
  | _ => exact inContext

/-! ## Evaluation and resolution -/

variable (jib : JibFields)

theorem balances_unlessReleased {absent : α} {body : Operation α} (holds : post absent 0)
    (balances : strings.Balances 0 post body) :
    strings.Balances 0 post (unlessReleased absent (locked body)) := by
  apply balances_if
  · exact balances_query rfl
  · exact balances_done holds
  · exact balances.locked

theorem balances_evalScript (jsScript : JSStringRef) :
    strings.Balances (Pi.single (some jsScript) 1) Spent (evalScript jib jsScript) := by
  apply balances_step rfl
  rintro ⟨_, exception⟩
  cases exception with
  | some jsException =>
      exact balances_thenRelease (some jsScript) id (balances_record jib.context jsException)
  | none =>
      apply (balances_jsStringRelease (some jsScript)).seq
      rintro _ _ rfl
      exact balances_done rfl

theorem balances_eval (script : HalfHitch) : strings.Balances 0 Spent (eval jib script) :=
  balances_unlessReleased rfl (balances_jsString rfl (balances_evalScript jib) script)

theorem balances_definedProperty (string : JSStringRef) :
    strings.Balances 0 Spent (definedProperty jib string) := by
  apply balances_step rfl
  intro value
  cases value with
  | none => exact balances_done rfl
  | some value =>
      apply balances_if
      · exact balances_query rfl
      · exact balances_done rfl
      · exact balances_done rfl

theorem balances_resolveGlobal (hitch : HalfHitch) :
    strings.Balances 0 Spent (resolveGlobal jib hitch) := by
  unfold resolveGlobal
  split
  · apply (balances_createJSString hitch).seq
    rintro string _ rfl
    cases string with
    | none => exact balances_done rfl
    | some string =>
        exact balances_thenRelease (some string) id (balances_definedProperty jib string)
  · exact balances_done rfl

theorem balances_acceptDefined (evaluated : Option JSValueRef × Option JSValueRef) :
    strings.Balances 0 Spent (acceptDefined jib evaluated) := by
  unfold acceptDefined
  split
  · apply balances_if
    · exact balances_query rfl
    · exact balances_done rfl
    · exact balances_done rfl
  · exact balances_done rfl

theorem balances_acceptOrRecord (evaluated : Option JSValueRef × Option JSValueRef) :
    strings.Balances 0 Spent (acceptOrRecord jib evaluated) := by
  unfold acceptOrRecord
  split
  · exact balances_record jib.context _
  · exact balances_done rfl

theorem balances_resolveParenthesized (hitch : HalfHitch) :
    strings.Balances 0 Spent (resolveParenthesized jib hitch) := by
  apply balances_hitchJSString rfl
  intro jsScript
  apply balances_step rfl
  intro evaluated
  exact balances_thenRelease (some jsScript) id (balances_acceptDefined jib evaluated)

theorem balances_resolveUnmodified (hitch : HalfHitch) :
    strings.Balances 0 Spent (resolveUnmodified jib hitch) := by
  apply balances_jsString rfl
  intro jsScript
  apply balances_step rfl
  intro evaluated
  exact balances_thenRelease (some jsScript) id (balances_acceptOrRecord jib evaluated)

/-- An attempt gives a value, or the next one is made. -/
theorem balances_attempt {attempt : Operation (Option β)}
    {continuation : Option β → Operation α} (attempts : strings.Balances 0 Spent attempt)
    (found : ∀ value, strings.Balances 0 Spent (continuation (some value)))
    (notFound : strings.Balances 0 Spent (continuation none)) :
    strings.Balances 0 Spent (attempt >>= continuation) := by
  apply attempts.seq
  rintro value _ rfl
  cases value with
  | some value => exact found value
  | none => exact notFound

theorem balances_resolveEvaluated (hitch : HalfHitch) :
    strings.Balances 0 Spent (resolveEvaluated jib hitch) := by
  apply balances_attempt (balances_resolveParenthesized jib hitch)
  · exact fun _ => balances_done rfl
  · apply balances_attempt (balances_resolveUnmodified jib hitch)
    · exact fun _ => balances_done rfl
    · exact balances_done rfl

theorem balances_resolve (hitch : HalfHitch) : strings.Balances 0 Spent (resolve jib hitch) := by
  apply balances_step rfl
  intro _
  apply balances_attempt (balances_resolveGlobal jib hitch)
  · exact fun _ => balances_done rfl
  · exact balances_resolveEvaluated jib hitch

/-! ## Names -/

/-- `set(global:value:)` once the name has been made. -/
def setNamed (value : JSValueRef) (string : Option JSStringRef) : Operation (Option Bool) := do
  match ← jsObjectSetProperty jib.context jib.global string (some value)
      (kJSPropertyAttributeReadOnly ||| kJSPropertyAttributeDontEnum |||
        kJSPropertyAttributeDontDelete) with
  | some jsException =>
      let recorded ← record jib.context jsException
      jsStringRelease string
      return recorded
  | none =>
      jsStringRelease string
      return some true

/-- What `JibFunction.init(jib:name:body:)` makes before the name. -/
def allocate (body : JibFunctionBody) : Operation (JSClassRef × AnyPtr) := do
  let jsClass ← jsClassCreate
  let bodyPtr ← makeRetainedPtr body
  return (jsClass, bodyPtr)

/-- `new(function:body:)` once the name has been made. -/
def makeNamed (made : JSClassRef × AnyPtr) (functionName : Option JSStringRef) :
    Operation (Option JibFunction) := do
  match ← jsObjectMakeFunctionWithCallback jib.context functionName with
  | some objectRef =>
      let bodyObject ← jsObjectMake jib.context made.1 made.2
      let _ ← jsObjectSetProperty jib.context objectRef
        (some jibCallbackProperyName) bodyObject 0
      jsValueProtect jib.context (some objectRef)
      jsStringRelease functionName
      appendCustomFunction ⟨made.1, some objectRef, made.2⟩
      return some ⟨made.1, some objectRef, made.2⟩
  | none =>
      jsStringRelease functionName
      JibFunction.deinit ⟨made.1, none, made.2⟩
      return none

/-- Operations with a name make its string after `first`, unless the `Jib` has
been released. -/
def withName (absent : α) (first : Operation β) (name : HalfHitch)
    (rest : β → Option JSStringRef → Operation α) : Operation α :=
  unlessReleased absent (locked (first >>= fun made => createJSString name >>= rest made))

theorem newFunction_eq (name : HalfHitch) (body : JibFunctionBody) :
    newFunction jib name body = withName none (allocate body) name (makeNamed jib) := by
  unfold newFunction withName
  congr 2
  simp only [makeJibFunction, allocate, jsClassCreate, makeRetainedPtr, call_bind, done_bind]
  refine congrArg (Program.call _) (funext fun jsClass => ?_)
  refine congrArg (Program.call _) (funext fun bodyPtr => ?_)
  simp only [bind_assoc, pure_eq_done, done_bind]
  congr 1
  funext functionName
  simp only [makeNamed, jsObjectMakeFunctionWithCallback, call_bind, done_bind]
  refine congrArg (Program.call _) (funext fun objectRef => ?_)
  cases objectRef with
  | some objectRef => rfl
  | none =>
      simp only [jsStringRelease, call_bind, done_bind, bind_assoc, pure_eq_done]

theorem balances_setNamed (value : JSValueRef) (string : Option JSStringRef) :
    strings.Balances (Pi.single string 1) Spent (setNamed jib value string) := by
  apply balances_step rfl
  intro exception
  cases exception with
  | some jsException =>
      exact balances_thenRelease string id (balances_record jib.context jsException)
  | none =>
      apply (balances_jsStringRelease string).seq
      rintro _ _ rfl
      exact balances_done rfl

theorem balances_allocate (body : JibFunctionBody) :
    strings.Balances 0 Spent (allocate body) := by
  apply balances_step rfl
  intro jsClass
  apply balances_step rfl
  intro bodyPtr
  exact balances_done rfl

theorem balances_deinit (function : JibFunction) :
    strings.Balances 0 Spent function.deinit := by
  apply balances_step rfl
  intro _
  apply balances_step rfl
  intro _
  apply balances_step rfl
  intro loaded
  cases loaded with
  | none => exact balances_done rfl
  | some owner =>
      apply balances_if
      · exact balances_query rfl
      · exact balances_done rfl
      · exact balances_query rfl

theorem balances_makeNamed (made : JSClassRef × AnyPtr) (functionName : Option JSStringRef) :
    strings.Balances (Pi.single functionName 1) Spent (makeNamed jib made functionName) := by
  apply balances_step rfl
  intro objectRef
  cases objectRef with
  | some objectRef =>
      apply balances_step rfl
      intro bodyObject
      apply balances_step rfl
      intro _
      apply balances_step rfl
      intro _
      apply (balances_jsStringRelease functionName).seq
      rintro _ _ rfl
      exact balances_query rfl
  | none =>
      apply (balances_jsStringRelease functionName).seq
      rintro _ _ rfl
      apply (balances_deinit ⟨made.1, none, made.2⟩).seq
      rintro _ _ rfl
      exact balances_done rfl

/-! ## Runs -/

/-- `JSValueMakeString` gives a value. -/
def MakesStringValues (handle : Handler interface State) : Prop :=
  ∀ context string state, (handle (.jsValueMakeString context string) state).1.isSome = true

/-- Each string that the run is given is released exactly once, and `NULL` never is. -/
def ReleasesStrings (handle : Handler interface State) (program : Operation α) (state : State) :
    Prop :=
  strings.Settles handle 0 program state 0 ∧ strings.taken handle none program state = 0

/-- What the run converts to a string can be converted. -/
def CopiesStrings (handle : Handler interface State) (program : Operation α) (state : State) :
    Prop :=
  strings.given handle none program state = 0

/-- The `Jib` has been released, or the engine makes a string of the name. -/
def MakesName (handle : Handler interface State) (first : Operation β) (name : HalfHitch)
    (state : State) : Prop :=
  (handle .readReleased state).1 = true ∨
    ((first >>= fun _ => createJSString name).run handle
      (handle .readReleased state).2).1.isSome = true

section Runs

variable {handle : Handler interface State} (makes : MakesStringValues handle) {state : State}

include makes in
theorem answers_of_makesStrings (command : Command) (state : State) :
    strings.Answers command (handle command state).1 := by
  cases command with
  | jsValueMakeString context string => exact makes context string state
  | _ => trivial

/-- A program that balances releases `NULL` exactly where a conversion gives it. -/
theorem taken_none_of_settles {program : Operation α}
    (settles : strings.Settles handle 0 program state 0) :
    strings.taken handle none program state = strings.given handle none program state := by
  have conserves := settles.conserves none
  simp only [Pi.zero_apply, Nat.zero_add] at conserves
  exact conserves.symm

theorem releasesStrings_iff_of_settles {program : Operation α}
    (settles : strings.Settles handle 0 program state 0) :
    ReleasesStrings handle program state ↔ CopiesStrings handle program state := by
  rw [ReleasesStrings, CopiesStrings, taken_none_of_settles settles]
  exact and_iff_right settles

include makes in
theorem releasesStrings_iff_of_balances {program : Operation α}
    (balances : strings.Balances 0 Spent program) :
    ReleasesStrings handle program state ↔ CopiesStrings handle program state := by
  obtain ⟨_, rfl, settles⟩ := balances.settles (answers_of_makesStrings makes) state
  exact releasesStrings_iff_of_settles settles

/-- Only commands that convert nothing to a string. -/
abbrev CopyFree (program : Operation α) : Prop :=
  program.Issues fun command : Command =>
    ∀ context value, command ≠ .jsValueToStringCopy context value

theorem Light.copyFree {program : Operation α} (light : Light program) : CopyFree program := by
  apply Uses.issues
  apply Uses.mono light
  rintro _ isOne context value rfl
  cases isOne

theorem CopyFree.copiesStrings {program : Operation α} (copyFree : CopyFree program) :
    CopiesStrings handle program state := by
  induction program generalizing state with
  | done value => rfl
  | acquire next ih => exact ih copyFree
  | release next ih => exact ih copyFree
  | call command next ih =>
      have givesString : strings.gives command (handle command state).1 none = 0 := by
        cases command with
        | jsValueToStringCopy context value => exact (copyFree.1 context value rfl).elim
        | jsStringCreateWithUTF8CString text => exact stringHolding_none _
        | jsValueCreateJSONString context value => exact stringHolding_none _
        | _ => rfl
      exact Nat.add_eq_zero_iff.mpr ⟨givesString, ih _ (copyFree.2 _)⟩

/-- Where one conversion is all there is, it must give a string. -/
theorem copiesStrings_copy {value : JSValueRef}
    {next : Option JSStringRef → Operation α} (copyFree : ∀ string, CopyFree (next string)) :
    CopiesStrings handle (.call (.jsValueToStringCopy context value) next) state ↔
      (handle (.jsValueToStringCopy context value) state).1.isSome = true := by
  have rest : strings.given handle none (next (handle (.jsValueToStringCopy context value) state).1)
      (handle (.jsValueToStringCopy context value) state).2 = 0 :=
    (copyFree _).copiesStrings
  change (Pi.single _ 1 : Holdings _) none + _ = 0 ↔ _
  rw [rest]
  cases (handle (.jsValueToStringCopy context value) state).1 <;> simp

theorem copiesStrings_record (jsException : JSValueRef) :
    CopiesStrings handle (record context jsException : Operation (Option α)) state ↔
      (handle (.jsValueToStringCopy context jsException) state).1.isSome = true := by
  apply copiesStrings_copy
  intro string
  apply ((looksOnly_jsStringToHitch string).light.copyFree.bind _).bind
  · intro text
    exact ⟨nofun, fun _ => trivial⟩
  · intro text
    exact ⟨nofun, fun _ => trivial⟩

theorem copiesStrings_readHitch (value : JSValueRef) :
    CopiesStrings handle (readAs context value (.hitch : ValueReader D)) state ↔
      (handle (.jsValueToStringCopy context value) state).1.isSome = true := by
  apply copiesStrings_copy
  intro string
  apply ((looksOnly_jsStringToHitch string).light.copyFree.bind _).bind
  · exact fun text => trivial
  · intro text
    exact ⟨nofun, fun _ => trivial⟩

theorem balances_readAs (value : JSValueRef) (reader : ValueReader D) :
    strings.Balances 0 Spent (readAs context value reader) := by
  have reply : ∀ {β : Type} {convert : Operation β}
      (wrap : β → Except Trap (Option (SwiftValue D))), strings.Balances 0 Spent convert →
        strings.Balances 0 Spent (convert >>= fun converted => .done (wrap converted)) := by
    intro β convert wrap converts
    apply converts.seq
    rintro converted _ rfl
    exact balances_done rfl
  cases reader with
  | hitch => exact reply _ (balances_jsValueToHitch context _)
  | json => exact reply _ (balances_jsValueToJson context _)
  | double => exact reply _ (balances_jsValueToDouble context _)
  | int => exact reply _ (balances_jsValueToInt context _)
  | bool => exact reply _ (balances_jsValueToBool context _)
  | function => exact reply _ (balances_jsValueToFunction context _)
  | decodable decode => exact reply _ (balances_jsValueToDecodable context decode _)

theorem copyFree_jsValueToFunction (value : Option JSValueRef) :
    CopyFree (jsValueToFunction context value) := by
  cases value with
  | none => trivial
  | some value =>
      refine ⟨nofun, fun isUndefined => ?_⟩
      cases isUndefined with
      | true => trivial
      | false =>
          refine ⟨nofun, fun isFunction => ?_⟩
          cases isFunction with
          | false => trivial
          | true => exact ⟨nofun, fun _ => ⟨nofun, fun _ => ⟨nofun, fun _ => trivial⟩⟩⟩

/-- Every other reader converts nothing to a string. -/
theorem copyFree_readAs (value : JSValueRef) {reader : ValueReader D}
    (notHitch : reader ≠ .hitch) : CopyFree (readAs context value reader) := by
  cases reader with
  | hitch => exact (notHitch rfl).elim
  | json => exact (looksOnly_jsValueToJson context _).light.copyFree.bind fun _ => trivial
  | double => exact (looksOnly_jsValueToDouble context _).light.copyFree.bind fun _ => trivial
  | int => exact (looksOnly_jsValueToInt context _).light.copyFree.bind fun _ => trivial
  | bool => exact (looksOnly_jsValueToBool context _).light.copyFree.bind fun _ => trivial
  | function => exact (copyFree_jsValueToFunction context _).bind fun _ => trivial
  | decodable decode =>
      exact (looksOnly_jsValueToDecodable context _ decode).light.copyFree.bind fun _ => trivial

include makes in
/-- Who has `NULL` in hand releases it. -/
theorem taken_none_pos {program : Operation α}
    (balances : strings.Balances (Pi.single none 1) Spent program) :
    0 < strings.taken handle none program state := by
  obtain ⟨_, rfl, settles⟩ := balances.settles (answers_of_makesStrings makes) state
  have conserves := settles.conserves none
  rw [Pi.single_eq_same] at conserves
  simp only [Pi.zero_apply] at conserves
  omega

section Names

variable {absent : α} {first : Operation β} {name : HalfHitch}
  {rest : β → Option JSStringRef → Operation α}

/-- What an operation with a name does once it has tested `released`. -/
theorem settles_withName_iff (alive : (handle .readReleased state).1 = false) :
    strings.Settles handle 0 (withName absent first name rest) state 0 ↔
      strings.Settles handle 0 (locked (first >>= fun made => createJSString name >>= rest made))
        (handle .readReleased state).2 0 := by
  change _ ∧ strings.Settles handle 0
    (if (handle .readReleased state).1 = true then _ else _) _ _ ↔ _
  rw [alive]
  exact and_iff_right (le_refl 0)

theorem taken_withName (alive : (handle .readReleased state).1 = false) :
    strings.taken handle none (withName absent first name rest) state =
      strings.taken handle none (first >>= fun made => createJSString name >>= rest made)
        (handle .readReleased state).2 := by
  change 0 + strings.taken handle none
    (if (handle .readReleased state).1 = true then _ else _) _ = _
  rw [alive, Nat.zero_add]
  exact strings.taken_locked none _

theorem copyFree_withName (firstFree : CopyFree first)
    (restFree : ∀ made string, CopyFree (rest made string)) :
    CopyFree (withName absent first name rest) := by
  have body : CopyFree (first >>= fun made => createJSString name >>= rest made) := by
    apply firstFree.bind
    intro made
    exact (light_createJSString name).copyFree.bind (restFree made)
  refine ⟨nofun, fun released => ?_⟩
  cases released with
  | true => trivial
  | false => exact body.bind fun _ => trivial

variable (makes : MakesStringValues handle)
  (restBalances : ∀ made string, strings.Balances (Pi.single string 1) Spent (rest made string))
include makes restBalances

/-- A name that the engine makes is released. -/
theorem settles_withName (firstBalances : strings.Balances 0 Spent first)
    (makesName : MakesName handle first name state) :
    strings.Settles handle 0 (withName absent first name rest) state 0 := by
  cases alive : (handle .readReleased state).1 with
  | true =>
      refine ⟨le_refl 0, ?_⟩
      change strings.Settles handle 0
        (if (handle .readReleased state).1 = true then .done absent else _) _ _
      rw [alive]
      exact rfl
  | false =>
      have answers := answers_of_makesStrings makes
      obtain ⟨_, rfl, firstSettles⟩ := firstBalances.settles answers (handle .readReleased state).2
      obtain ⟨_, rfl, nameSettles⟩ := (balances_createJSString name).settles answers
        (first.run handle (handle .readReleased state).2).2
      rw [MakesName, alive, run_bind] at makesName
      obtain ⟨string, isString⟩ :=
        Option.isSome_iff_exists.mp (makesName.resolve_left Bool.false_ne_true)
      rw [isString] at nameSettles
      obtain ⟨_, rfl, restSettles⟩ := (restBalances _ (some string)).settles answers _
      rw [settles_withName_iff alive]
      apply Ledger.Settles.locked
      apply firstSettles.bind
      apply nameSettles.bind
      rw [isString]
      exact restSettles

/-- Where no name is made, `NULL` is released. -/
theorem taken_withName_pos (noName : ¬MakesName handle first name state) :
    0 < strings.taken handle none (withName absent first name rest) state := by
  obtain ⟨notReleased, notMade⟩ := not_or.mp noName
  rw [taken_withName (Bool.eq_false_of_not_eq_true notReleased), Ledger.taken_bind,
    Ledger.taken_bind]
  rw [run_bind, Option.not_isSome_iff_eq_none] at notMade
  rw [notMade]
  apply Nat.add_pos_right
  apply Nat.add_pos_right
  exact taken_none_pos makes (restBalances _ none)

theorem releasesStrings_withName_iff (firstBalances : strings.Balances 0 Spent first) :
    ReleasesStrings handle (withName absent first name rest) state ↔
      MakesName handle first name state ∧
        CopiesStrings handle (withName absent first name rest) state := by
  by_cases makesName : MakesName handle first name state
  · rw [releasesStrings_iff_of_settles
      (settles_withName makes restBalances firstBalances makesName)]
    exact (and_iff_right makesName).symm
  · have taken : 0 < strings.taken handle none (withName absent first name rest) state :=
      taken_withName_pos makes restBalances makesName
    constructor
    · intro releases
      have notTaken := releases.2
      omega
    · intro holds
      exact (makesName holds.1).elim

end Names

/-- A function is made without a conversion. -/
theorem copyFree_newFunction (name : HalfHitch) (body : JibFunctionBody) :
    CopyFree (withName none (allocate body) name (makeNamed jib)) := by
  apply copyFree_withName
  · exact ⟨nofun, fun _ => ⟨nofun, fun _ => trivial⟩⟩
  · intro made functionName
    refine ⟨nofun, fun objectRef => ?_⟩
    cases objectRef with
    | some objectRef =>
        exact ⟨nofun, fun _ => ⟨nofun, fun _ => ⟨nofun, fun _ =>
          ⟨nofun, fun _ => ⟨nofun, fun _ => trivial⟩⟩⟩⟩⟩
    | none =>
        refine ⟨nofun, fun _ => ⟨nofun, fun _ => ⟨nofun, fun _ => ⟨nofun, fun loaded => ?_⟩⟩⟩⟩
        cases loaded with
        | none => trivial
        | some owner =>
            refine ⟨nofun, fun released => ?_⟩
            cases released with
            | true => trivial
            | false => exact ⟨nofun, fun _ => trivial⟩

include makes in
/-- Strings are released exactly once, and `NULL` never is, where the conversions
to strings that the run makes give strings and the engine makes the name that it
is given.  Only `record`, the reader of texts and what records an exception
convert anything. -/
theorem releasesStrings_iff (state : State) :
    (∀ jib script, ReleasesStrings handle (eval jib script) state ↔
        CopiesStrings handle (eval jib script) state) ∧
      (∀ jib hitch, ReleasesStrings handle (resolve jib hitch) state ↔
        CopiesStrings handle (resolve jib hitch) state) ∧
      (∀ jib name value, ReleasesStrings handle (setGlobalValue jib name value) state ↔
        MakesName handle (return ()) name state ∧
          CopiesStrings handle (setGlobalValue jib name value) state) ∧
      (∀ jib name body, ReleasesStrings handle (newFunction jib name body) state ↔
        MakesName handle (allocate body) name state) ∧
      (∀ context jsException,
        ReleasesStrings handle (record context jsException : Operation (Option α)) state ↔
          (handle (.jsValueToStringCopy context jsException) state).1.isSome = true) ∧
      (∀ context value (reader : ValueReader D),
        ReleasesStrings handle (readAs context value reader) state ↔ (reader = .hitch →
          (handle (.jsValueToStringCopy context value) state).1.isSome = true)) ∧
      (∀ context argument,
        ReleasesStrings handle (JibUnknown.createContextValue context argument) state) ∧
      ∀ jib argument, ReleasesStrings handle (JibUnknown.createJibValue jib argument) state := by
  refine ⟨?_, ?_, ?_, ?_, ?_, ?_, ?_, ?_⟩
  · intro jib script
    exact releasesStrings_iff_of_balances makes (balances_eval jib script)
  · intro jib hitch
    exact releasesStrings_iff_of_balances makes (balances_resolve jib hitch)
  · intro jib name value
    exact releasesStrings_withName_iff makes (fun _ => balances_setNamed jib value)
      (balances_done rfl)
  · intro jib name body
    rw [newFunction_eq, releasesStrings_withName_iff makes (balances_makeNamed jib)
      (balances_allocate body)]
    exact and_iff_left (copyFree_newFunction jib name body).copiesStrings
  · intro context jsException
    rw [releasesStrings_iff_of_balances makes (balances_record context jsException)]
    exact copiesStrings_record context jsException
  · intro context value reader
    rw [releasesStrings_iff_of_balances makes (balances_readAs context value reader)]
    by_cases isHitch : reader = .hitch
    · rw [isHitch, copiesStrings_readHitch]
      exact (true_imp_iff.symm.trans (by simp))
    · have copies : CopiesStrings handle (readAs context value reader) state :=
        (copyFree_readAs context value isHitch).copiesStrings
      simp [isHitch, copies]
  · intro context argument
    rw [releasesStrings_iff_of_balances makes (balances_createContextValue context argument)]
    exact (light_createContextValue context argument).copyFree.copiesStrings
  · intro jib argument
    rw [releasesStrings_iff_of_balances makes (balances_createJibValue jib argument)]
    exact (light_createJibValue jib argument).copyFree.copiesStrings

end Runs

/-- An engine whose values are symbols: none can be converted to a string. -/
def symbolHandle : Handler interface Unit :=
  fun command state => (emptyAnswer command, state)

theorem releasesStrings_iff_symbol :
    (∀ jib script, ReleasesStrings symbolHandle (eval jib script) () ↔
        CopiesStrings symbolHandle (eval jib script) ()) ∧
      (∀ jib hitch, ReleasesStrings symbolHandle (resolve jib hitch) () ↔
        CopiesStrings symbolHandle (resolve jib hitch) ()) ∧
      (∀ jib name value, ReleasesStrings symbolHandle (setGlobalValue jib name value) () ↔
        MakesName symbolHandle (return ()) name () ∧
          CopiesStrings symbolHandle (setGlobalValue jib name value) ()) ∧
      (∀ jib name body, ReleasesStrings symbolHandle (newFunction jib name body) () ↔
        MakesName symbolHandle (allocate body) name ()) ∧
      (∀ context jsException,
        ReleasesStrings symbolHandle (record context jsException : Operation (Option Unit)) () ↔
          (symbolHandle (.jsValueToStringCopy context jsException) ()).1.isSome = true) ∧
      (∀ context value (reader : ValueReader Unit),
        ReleasesStrings symbolHandle (readAs context value reader) () ↔ (reader = .hitch →
          (symbolHandle (.jsValueToStringCopy context value) ()).1.isSome = true)) ∧
      (∀ context argument,
        ReleasesStrings symbolHandle (JibUnknown.createContextValue context argument) ()) ∧
      ∀ jib argument, ReleasesStrings symbolHandle (JibUnknown.createJibValue jib argument) () :=
  releasesStrings_iff (fun _ _ _ => rfl) ()

/-- The text of a symbol is asked for: there is no string, and `NULL` is released. -/
theorem jsValueToHitch_releases_null :
    MakesStringValues symbolHandle ∧
      ¬ReleasesStrings symbolHandle (jsValueToHitch 0 (some 1)) () := by
  refine ⟨fun _ _ _ => rfl, ?_⟩
  intro releases
  have notTaken : strings.taken symbolHandle none (jsValueToHitch 0 (some 1)) () = 0 := releases.2
  revert notTaken
  decide

end Jib.JSC
