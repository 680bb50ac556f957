import Jib.JSCLifetimes
import Jib.ProgramContracts

/-!
# The values that operations pass on

`Own` is a property of values, such as belonging to one group of contexts.
When the fields of a `Jib` and the arguments of an operation have it, and every
answer of the engine does, then every value that the operation passes to the
engine has it too, and every call is given the context of the `Jib`.
-/

namespace Jib.JSC

open BinaryNumbers CommandProgram Program

/-- Commands that make no function, release nothing and leave the lists of
functions alone. -/
@[simp]
def Command.isPlain : Command → Bool
  | .appendCustomFunction _ => false
  | .clearCustomFunctions => false
  | .setPrintFn _ => false
  | .setReleased => false
  | .makeRetainedPtr _ => false
  | .makeReleasedClass _ => false
  | .jsContextGroupCreate => false
  | .jsContextGroupRelease _ => false
  | .jsGlobalContextCreateInGroup _ => false
  | .jsGlobalContextRelease _ => false
  | .jsObjectMake .. => false
  | .jsObjectMakeFunctionWithCallback .. => false
  | _ => true

/-- The values that a command passes to the engine. -/
@[simp]
def Command.values : Command → List JSValueRef
  | .jsObjectCallAsFunction _ object arguments =>
      object.toList ++ arguments.filterMap id
  | .jsObjectGetProperty _ object _ => [object]
  | .jsObjectSetProperty _ object _ value _ => object :: value.toList
  | .jsObjectCopyPropertyNames _ object => [object]
  | .jsObjectIsFunction _ object => [object]
  | .jsObjectGetPrivate object => [object]
  | .jsObjectMakeArray _ arguments => arguments.filterMap id
  | .jsValueProtect _ value => value.toList
  | .jsValueUnprotect _ value => value.toList
  | .jsValueIsUndefined _ value => [value]
  | .jsValueIsNumber _ value => [value]
  | .jsValueIsBoolean _ value => [value]
  | .jsValueToNumber _ value => [value]
  | .jsValueToBoolean _ value => [value]
  | .jsValueToStringCopy _ value => [value]
  | .jsValueCreateJSONString _ value => [value]
  | _ => []

@[simp]
def answerValues : (command : Command) → Answer command → List JSValueRef
  | .jsContextGetGlobalObject _, global => [global]
  | .jsEvaluateScript .., (value, exception) => value.toList ++ exception.toList
  | .jsObjectCallAsFunction .., (value, exception) => value.toList ++ exception.toList
  | .jsObjectGetProperty .., value => value.toList
  | .jsObjectSetProperty .., exception => exception.toList
  | .jsObjectMake .., object => object.toList
  | .jsObjectMakeArray .., array => array.toList
  | .jsObjectMakeFunctionWithCallback .., function => function.toList
  | .jsValueMakeUndefined _, value => [value]
  | .jsValueMakeBoolean .., value => [value]
  | .jsValueMakeNumber .., value => [value]
  | .jsValueMakeString .., value => value.toList
  | _, _ => []

/-- The values that an operation is given. -/
def JibUnknown.values : JibUnknown → List JSValueRef
  | .jibFunction function => function.objectRef.toList
  | _ => []

def JibFields.values (jib : JibFields) : List JSValueRef :=
  [jib.global, jib.undefined, jib.trueValue, jib.falseValue]

section

variable (context : JSGlobalContextRef) (Own Callable : JSValueRef → Prop)

/-- What a command may be given, and what it may be answered. -/
def Proper (command : Command) (_ : Unit) : Prop :=
  command.isPlain = true ∧ (∀ given ∈ command.context?, given = context) ∧
    ∀ value ∈ command.values, Own value

/-- An object that is found to be a function is callable, and what is callable
has no private data. -/
def Classifies : (command : Command) → Answer command → Prop
  | .jsObjectIsFunction _ object, isFunction => isFunction = true → Callable object
  | .jsObjectGetPrivate object, data => Callable object → data = none
  | _, _ => True

def OwnAnswer : Effect interface Unit := fun command _ answer _ =>
  (∀ value ∈ answerValues command answer, Own value) ∧ Classifies Callable command answer

/-- The program only passes on values that it owns, in its own context. -/
abbrev Passes {α : Type} (post : α → Prop) (program : Operation α) : Prop :=
  program.Satisfies (OwnAnswer Own Callable) (Proper context Own)
    (fun value _ => post value) ()

end

variable {context : JSGlobalContextRef} {Own Callable : JSValueRef → Prop} {α β : Type}

theorem passes_call {post : α → Prop} {command : Command}
    {next : Answer command → Operation α} (plain : command.isPlain = true)
    (inContext : ∀ given ∈ command.context?, given = context)
    (own : ∀ value ∈ command.values, Own value)
    (rest : ∀ answer, (∀ value ∈ answerValues command answer, Own value) →
      Passes context Own Callable post (next answer)) :
    Passes context Own Callable post (.call command next) :=
  ⟨⟨plain, inContext, own⟩, fun answer _ owns => rest answer owns.1⟩

theorem passes_done {post : α → Prop} {value : α} (holds : post value) :
    Passes context Own Callable post (.done value) :=
  holds

theorem Passes.bind {post : α → Prop} {middle : β → Prop} {program : Operation β}
    {continuation : β → Operation α} (passes : Passes context Own Callable middle program)
    (rest : ∀ value, middle value → Passes context Own Callable post (continuation value)) :
    Passes context Own Callable post (program >>= continuation) :=
  Satisfies.bind (Satisfies.mono passes fun value _ holds => rest value holds)

/-! ## Strings and readers -/

section Strings

variable {post : Option α → Prop} {callback : JSStringRef → Operation (Option α)}

theorem passes_withJSString (memory : Bytes) (absent : post none)
    (passes : ∀ string, Passes context Own Callable post (callback string)) :
    Passes context Own Callable post (withJSString memory callback) := by
  apply passes_call rfl (by simp [Command.context?]) (by simp)
  intro string _
  cases string with
  | none => exact absent
  | some string => exact passes string

theorem passes_hitchJSString (hitch : Hitch) (absent : post none)
    (passes : ∀ string, Passes context Own Callable post (callback string)) :
    Passes context Own Callable post (hitchJSString hitch callback) := by
  unfold hitchJSString
  split
  · split
    · exact passes_withJSString _ absent passes
    · exact absent
  · exact absent

theorem passes_jsString (slice : HalfHitch) (absent : post none)
    (passes : ∀ string, Passes context Own Callable post (callback string)) :
    Passes context Own Callable post (jsString slice callback) := by
  unfold jsString
  split
  · split
    · exact passes_withJSString _ absent passes
    · exact passes_hitchJSString _ absent passes
  · exact absent

end Strings

/-- The value of an option is owned. -/
def OwnOption (Own : JSValueRef → Prop) (value : Option JSValueRef) : Prop :=
  ∀ present ∈ value, Own present

theorem passes_createJSString (value : HalfHitch) :
    Passes context Own Callable (fun _ => True) (createJSString value) :=
  passes_jsString value trivial fun _ => trivial

theorem passes_jsStringToHitch (string : Option JSStringRef) :
    Passes context Own Callable (fun _ => True) (jsStringToHitch string) := by
  cases string with
  | none => trivial
  | some string =>
      refine passes_call rfl (by simp [Command.context?]) (by simp) fun size _ => ?_
      exact passes_call rfl (by simp [Command.context?]) (by simp) fun _ _ => trivial

theorem passes_jsStringRelease {post : α → Prop} (string : Option JSStringRef)
    {rest : Operation α} (passes : Passes context Own Callable post rest) :
    Passes context Own Callable post (jsStringRelease string >>= fun _ => rest) :=
  passes_call rfl (by simp [Command.context?]) (by simp) fun _ _ => passes

/-- The readers give up on `undefined`. -/
theorem passes_unlessUndefined {post : α → Prop} {value : JSValueRef} (own : Own value)
    {absent : α} (postAbsent : post absent) {present : Operation α}
    (passes : Passes context Own Callable post present) :
    Passes context Own Callable post (do
      if ← jsValueIsUndefined context value then return absent else present) := by
  apply passes_call rfl (by simp [Command.context?]) (by simpa using own)
  intro isUndefined _
  cases isUndefined with
  | true => exact postAbsent
  | false => exact passes

/-- Readers of one kind of value look whether it is of that kind. -/
theorem passes_ifKind {post : α → Prop} {value : JSValueRef} (own : Own value)
    {absent : α} (postAbsent : post absent) {test : Operation Bool} {convert : Operation α}
    (tests : Passes context Own Callable (fun _ => True) test)
    (converts : Passes context Own Callable post convert) :
    Passes context Own Callable post (jsValueIsUndefined context value >>= fun isUndefined =>
      if isUndefined then .done absent
      else test >>= fun isKind => if isKind then convert else .done absent) := by
  apply passes_unlessUndefined own postAbsent
  refine tests.bind fun isKind _ => ?_
  cases isKind with
  | false => exact passes_done postAbsent
  | true => exact converts

section Readers

variable {value : Option JSValueRef} (own : OwnOption Own value)
include own

theorem passes_jsValueToJson :
    Passes context Own Callable (fun _ => True) (jsValueToJson context value) := by
  cases value with
  | none => trivial
  | some value =>
      apply passes_call rfl (by simp [Command.context?]) (by simpa [OwnOption] using own)
      intro string _
      cases string with
      | none => trivial
      | some string =>
          refine (passes_jsStringToHitch (some string)).bind fun _ _ => ?_
          exact passes_jsStringRelease _ trivial

theorem passes_jsValueToHitch :
    Passes context Own Callable (fun _ => True) (jsValueToHitch context value) := by
  cases value with
  | none => trivial
  | some value =>
      apply passes_call rfl (by simp [Command.context?]) (by simpa [OwnOption] using own)
      intro string _
      refine (passes_jsStringToHitch string).bind fun _ _ => ?_
      exact passes_jsStringRelease _ trivial

theorem passes_jsValueToDecodable {D : Type} (decode : Bytes → Option D) :
    Passes context Own Callable (fun _ => True) (jsValueToDecodable context decode value) := by
  cases value with
  | none => trivial
  | some value =>
      apply passes_unlessUndefined (own value rfl) trivial
      refine (passes_jsValueToJson own).bind fun json _ => ?_
      cases json <;> trivial

theorem passes_jsValueToFunction :
    Passes context Own Callable
      (fun function => ∀ made ∈ function, made.bodyPtr = none ∧ OwnOption Own made.objectRef)
      (jsValueToFunction context value) := by
  cases value with
  | none => simp [jsValueToFunction]
  | some value =>
      have owned : Own value := own value rfl
      apply passes_unlessUndefined owned (by simp)
      refine ⟨⟨rfl, by simp [Command.context?], by simpa using owned⟩, ?_⟩
      rintro isFunction _ ⟨_, callable⟩
      cases isFunction with
      | false => exact passes_done (by simp)
      | true =>
          refine ⟨⟨rfl, by simp [Command.context?], by simpa using owned⟩, ?_⟩
          rintro bodyPtr _ ⟨_, noData⟩
          obtain rfl : bodyPtr = none := noData (callable rfl)
          apply passes_call rfl (by simp [Command.context?]) (by simpa using owned)
          intro _ _
          refine passes_call rfl (by simp [Command.context?]) (by simp) fun jsClass _ => ?_
          exact passes_done (by simpa [OwnOption] using owned)

theorem passes_jsValueToDouble :
    Passes context Own Callable (fun _ => True) (jsValueToDouble context value) := by
  cases value with
  | none => trivial
  | some value =>
      have owned : Own value := own value rfl
      apply passes_ifKind owned trivial
      · apply passes_call rfl (by simp [Command.context?]) (by simpa using owned)
        exact fun _ _ => trivial
      · apply passes_call rfl (by simp [Command.context?]) (by simpa using owned)
        exact fun _ _ => trivial

theorem passes_jsValueToInt :
    Passes context Own Callable (fun _ => True) (jsValueToInt context value) := by
  cases value with
  | none => trivial
  | some value =>
      have owned : Own value := own value rfl
      apply passes_ifKind owned trivial
      · apply passes_call rfl (by simp [Command.context?]) (by simpa using owned)
        exact fun _ _ => trivial
      · apply passes_call rfl (by simp [Command.context?]) (by simpa using owned)
        exact fun _ _ => trivial

theorem passes_jsValueToBool :
    Passes context Own Callable (fun _ => True) (jsValueToBool context value) := by
  cases value with
  | none => trivial
  | some value =>
      have owned : Own value := own value rfl
      apply passes_ifKind owned trivial
      · apply passes_call rfl (by simp [Command.context?]) (by simpa using owned)
        exact fun _ _ => trivial
      · apply passes_call rfl (by simp [Command.context?]) (by simpa using owned)
        exact fun _ _ => trivial

end Readers

theorem passes_record {post : Option α → Prop} {jsException : JSValueRef}
    (own : Own jsException) (absent : post none) :
    Passes context Own Callable post (record context jsException : Operation (Option α)) := by
  have owned : OwnOption Own (some jsException) := by simpa [OwnOption] using own
  refine (passes_jsValueToHitch owned).bind fun text _ => ?_
  exact passes_call rfl (by simp [Command.context?]) (by simp) fun _ _ => absent

/-! ## Swift values -/

theorem passes_createStringJibValue (string : Option JSStringRef) :
    Passes context Own Callable (Own) (createStringJibValue context string) := by
  have undefined : Passes context Own Callable Own (jsValueMakeUndefined context) :=
    passes_call rfl (by simp [Command.context?]) (by simp) fun value own =>
      passes_done (own value (by simp))
  cases string with
  | none => exact undefined
  | some string =>
      apply passes_call rfl (by simp [Command.context?]) (by simp)
      intro result own
      cases result with
      | none => exact undefined
      | some result => exact passes_jsStringRelease _ (passes_done (own result (by simp)))

theorem passes_halfHitchToJSValue (value : HalfHitch) :
    Passes context Own Callable (OwnOption Own) (halfHitchToJSValue context value) := by
  refine passes_jsString value (by simp [OwnOption]) fun string => ?_
  refine passes_call rfl (by simp [Command.context?]) (by simp) fun result own => ?_
  exact passes_jsStringRelease _ (passes_done (by simpa [OwnOption] using own))

/-- A call that makes a value. -/
theorem passes_makeValue {command : Command} (plain : command.isPlain = true)
    (inContext : ∀ given ∈ command.context?, given = context)
    (own : ∀ value ∈ command.values, Own value)
    {make : Answer command → JSValueRef}
    (made : ∀ answer, make answer ∈ answerValues command answer) :
    Passes context Own Callable (OwnOption Own)
      (some <$> (.call command fun answer => .done (make answer) : Operation JSValueRef)) :=
  passes_call plain inContext own fun answer owns =>
    passes_done (by simpa [OwnOption] using owns _ (made answer))

theorem passes_createContextValue {argument : JibUnknown}
    (own : ∀ value ∈ argument.values, Own value) :
    Passes context Own Callable (OwnOption Own) (argument.createContextValue context) := by
  have stringValue : ∀ string, Passes context Own Callable (OwnOption Own)
      (some <$> createStringJibValue context string) := fun string =>
    (passes_createStringJibValue string).bind fun value owned =>
      passes_done (by simpa [OwnOption] using owned)
  cases argument with
  | jibFunction function =>
      simp only [JibUnknown.createContextValue]
      split
      · rename_i objectRef isObject
        exact passes_done (by
          simpa [OwnOption] using own objectRef (by simp [JibUnknown.values, isObject]))
      · exact passes_makeValue rfl (by simp [Command.context?]) (by simp) fun _ => by simp
  | hitchArray hitches =>
      have elements : Passes context Own Callable
          (fun values => ∀ value ∈ values, OwnOption Own value)
          (mapEach (fun hitch : Hitch => halfHitchToJSValue context hitch.halfhitch) hitches) :=
        (satisfies_mapEach (fun _ => True)
          (fun hitch _ _ _ => (passes_halfHitchToJSValue hitch.halfhitch).mono
            fun _ _ owned => ⟨owned, trivial⟩) trivial).mono fun _ _ owned => owned.1
      refine elements.bind fun values owned => ?_
      refine passes_call rfl (by simp [Command.context?]) ?_ fun array owns => ?_
      · intro value member
        obtain ⟨element, isElement, isValue⟩ := List.mem_filterMap.mp member
        exact owned element isElement value isValue
      · exact passes_done (by simpa [OwnOption] using owns)
  | string bytes => exact (passes_createJSString _).bind fun string _ => stringValue string
  | staticString bytes =>
      exact (passes_createJSString _).bind fun string _ => stringValue string
  | hitch text =>
      have created : Passes context Own Callable (fun _ => True)
          (hitchJSString text fun string => return some string) :=
        passes_hitchJSString text trivial fun _ => trivial
      exact created.bind fun string _ => stringValue string
  | halfHitch slice => exact (passes_createJSString slice).bind fun string _ => stringValue string
  | int value => exact passes_makeValue rfl (by simp [Command.context?]) (by simp) fun _ => by simp
  | uint value => exact passes_makeValue rfl (by simp [Command.context?]) (by simp) fun _ => by simp
  | double value =>
      exact passes_makeValue rfl (by simp [Command.context?]) (by simp) fun _ => by simp
  | float value =>
      exact passes_makeValue rfl (by simp [Command.context?]) (by simp) fun _ => by simp
  | bool value => exact passes_makeValue rfl (by simp [Command.context?]) (by simp) fun _ => by simp

/-! ## Operations -/

section Operations

variable {jib : JibFields}

theorem passes_convertArgument (ownJib : ∀ value ∈ jib.values, Own value)
    {argument : Option JibUnknown}
    (own : ∀ given ∈ argument, ∀ value ∈ given.values, Own value) :
    Passes jib.context Own Callable (OwnOption Own) (convertArgument jib argument) := by
  cases argument with
  | none => exact passes_done (by simp [OwnOption])
  | some argument =>
      simp only [convertArgument, JibUnknown.createJibValue]
      split
      · apply passes_done
        simp only [JibFields.values, List.mem_cons, List.not_mem_nil, or_false,
          forall_eq_or_imp, forall_eq] at ownJib
        rename_i value
        cases value <;> simp [OwnOption, ownJib]
      · exact passes_createContextValue (own argument rfl)

theorem passes_callConverted {function : JibFunction} (given : Nat)
    {convertedArgs : List (Option JSValueRef)}
    (ownFunction : OwnOption Own function.objectRef)
    (own : ∀ value ∈ convertedArgs, OwnOption Own value) :
    Passes jib.context Own Callable (OwnOption Own)
      (callConverted jib function given convertedArgs) := by
  unfold callConverted
  split
  · exact passes_call rfl (by simp [Command.context?]) (by simp) fun _ _ =>
      passes_done (by simp [OwnOption])
  · refine passes_call rfl (by simp [Command.context?]) ?_ fun called owns => ?_
    · intro value member
      rcases List.mem_append.mp member with isFunction | isArgument
      · exact ownFunction value (by simpa using isFunction)
      · obtain ⟨element, isElement, isValue⟩ := List.mem_filterMap.mp isArgument
        exact own element isElement value isValue
    · obtain ⟨jsValue, exception⟩ := called
      cases exception with
      | some jsException =>
          exact passes_record (owns jsException (by simp)) (by simp [OwnOption])
      | none => exact passes_done (by simpa [OwnOption] using owns)

/-- An operation that is released gives up. -/
theorem passes_unlessReleased {post : α → Prop} {absent : α} {body : Operation α}
    (postAbsent : post absent) (passes : Passes context Own Callable post body) :
    Passes context Own Callable post (unlessReleased absent (locked body)) := by
  apply passes_call rfl (by simp [Command.context?]) (by simp)
  intro released _
  cases released with
  | true => exact postAbsent
  | false => exact passes.locked

theorem passes_callJSValue (ownJib : ∀ value ∈ jib.values, Own value)
    {function : JibFunction} {arguments : List (Option JibUnknown)}
    (ownFunction : OwnOption Own function.objectRef)
    (own : ∀ argument ∈ arguments, ∀ given ∈ argument, ∀ value ∈ given.values, Own value) :
    Passes jib.context Own Callable (OwnOption Own) (callJSValue jib function arguments) := by
  apply passes_unlessReleased (by simp [OwnOption])
  have converted : Passes jib.context Own Callable
      (fun values => ∀ value ∈ values, OwnOption Own value)
      (mapEach (convertArgument jib) arguments) :=
    (satisfies_mapEach (fun _ => True)
      (fun argument member _ _ => (passes_convertArgument ownJib (own argument member)).mono
        fun _ _ owned => ⟨owned, trivial⟩) trivial).mono fun _ _ owned => owned.1
  exact converted.bind fun values owned => passes_callConverted _ ownFunction owned

theorem passes_evalScript (jsScript : JSStringRef) :
    Passes jib.context Own Callable (fun _ => True) (evalScript jib jsScript) := by
  refine passes_call rfl (by simp [Command.context?]) (by simp) fun evaluated owns => ?_
  obtain ⟨value, exception⟩ := evaluated
  cases exception with
  | some jsException =>
      have recorded : Passes jib.context Own Callable (fun _ : Option Bool => True)
          (record jib.context jsException) :=
        passes_record (owns jsException (by simp)) trivial
      exact recorded.bind fun _ _ => passes_jsStringRelease _ trivial
  | none => exact passes_jsStringRelease _ trivial

theorem passes_resolveGlobal (ownJib : ∀ value ∈ jib.values, Own value)
    (hitch : HalfHitch) :
    Passes jib.context Own Callable (OwnOption Own) (resolveGlobal jib hitch) := by
  unfold resolveGlobal
  split
  · refine (passes_createJSString hitch).bind fun string _ => ?_
    cases string with
    | none => exact passes_done (by simp [OwnOption])
    | some string =>
        have defined : Passes jib.context Own Callable (OwnOption Own)
            (definedProperty jib string) := by
          have ownGlobal : Own jib.global := ownJib _ (by simp [JibFields.values])
          apply passes_call rfl (by simp [Command.context?]) (by simpa using ownGlobal)
          intro value owns
          cases value with
          | none => exact passes_done (by simp [OwnOption])
          | some value =>
              exact passes_unlessUndefined (owns value (by simp)) (by simp [OwnOption])
                (passes_done (by simpa [OwnOption] using owns))
        refine defined.bind fun value owned => ?_
        exact passes_jsStringRelease _ (passes_done owned)
  · exact passes_done (by simp [OwnOption])

theorem passes_resolveParenthesized (hitch : HalfHitch) :
    Passes jib.context Own Callable (OwnOption Own) (resolveParenthesized jib hitch) := by
  refine passes_hitchJSString _ (by simp [OwnOption]) fun jsScript => ?_
  refine passes_call rfl (by simp [Command.context?]) (by simp) fun evaluated owns => ?_
  have accepted : Passes jib.context Own Callable (OwnOption Own)
      (acceptDefined jib evaluated) := by
    unfold acceptDefined
    split
    · exact passes_unlessUndefined (owns _ (by simp)) (by simp [OwnOption])
        (passes_done (by simpa [OwnOption] using owns))
    · exact passes_done (by simp [OwnOption])
  refine accepted.bind fun value owned => ?_
  exact passes_jsStringRelease _ (passes_done owned)

theorem passes_resolveUnmodified (hitch : HalfHitch) :
    Passes jib.context Own Callable (OwnOption Own) (resolveUnmodified jib hitch) := by
  refine passes_jsString _ (by simp [OwnOption]) fun jsScript => ?_
  refine passes_call rfl (by simp [Command.context?]) (by simp) fun evaluated owns => ?_
  have accepted : Passes jib.context Own Callable (OwnOption Own)
      (acceptOrRecord jib evaluated) := by
    unfold acceptOrRecord
    split
    · exact passes_record (owns _ (by simp)) (by simp [OwnOption])
    · exact passes_done (by simpa [OwnOption] using owns)
  refine accepted.bind fun value owned => ?_
  exact passes_jsStringRelease _ (passes_done owned)

theorem passes_resolve (ownJib : ∀ value ∈ jib.values, Own value) (hitch : HalfHitch) :
    Passes jib.context Own Callable (OwnOption Own) (resolve jib hitch) := by
  refine passes_call rfl (by simp [Command.context?]) (by simp) fun _ _ => ?_
  refine (passes_resolveGlobal ownJib hitch).bind fun value owned => ?_
  cases value with
  | some value => exact passes_done owned
  | none =>
      refine (passes_resolveParenthesized hitch).bind fun value owned => ?_
      cases value with
      | some value => exact passes_done owned
      | none =>
          refine (passes_resolveUnmodified hitch).bind fun value owned => ?_
          cases value with
          | some value => exact passes_done owned
          | none =>
              have ownUndefined : Own jib.undefined := ownJib _ (by simp [JibFields.values])
              exact passes_done (by simpa [OwnOption] using ownUndefined)

theorem passes_setGlobalValue (ownJib : ∀ value ∈ jib.values, Own value)
    (name : HalfHitch) {value : JSValueRef} (own : Own value) :
    Passes jib.context Own Callable (fun _ => True) (setGlobalValue jib name value) := by
  apply passes_unlessReleased trivial
  refine (passes_createJSString name).bind fun string _ => ?_
  have ownGlobal : Own jib.global := ownJib _ (by simp [JibFields.values])
  apply passes_call rfl (by simp [Command.context?]) (by simp [own, ownGlobal])
  intro exception owns
  cases exception with
  | some jsException =>
      have recorded : Passes jib.context Own Callable (fun _ : Option Bool => True)
          (record jib.context jsException) :=
        passes_record (owns jsException (by simp)) trivial
      exact recorded.bind fun _ _ => passes_jsStringRelease _ trivial
  | none => exact passes_jsStringRelease _ trivial

theorem ownArguments {arguments : List (Option JibUnknown)}
    (own : ∀ value ∈ arguments.flatMap (fun argument =>
      argument.toList.flatMap JibUnknown.values), Own value) :
    ∀ argument ∈ arguments, ∀ given ∈ argument, ∀ value ∈ given.values, Own value := by
  intro argument isArgument given isGiven value isValue
  refine own value (List.mem_flatMap.mpr ⟨argument, isArgument, ?_⟩)
  exact List.mem_flatMap.mpr ⟨given, by simpa using isGiven, isValue⟩

end Operations

end Jib.JSC
