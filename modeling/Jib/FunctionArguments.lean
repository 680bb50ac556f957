import Jib.FunctionBodies

/-!
# Arguments of functions that were made

QuickJS pads the arguments of a call that has fewer than the function declares,
but still passes the number that were given; JavaScriptCore passes them as they
are.  The callbacks convert what they are given, one argument after another, run
the body on the list and convert its result.
-/

namespace Jib

open CommandProgram Program

/-! ## QuickJS -/

namespace QuickJS

/-- The length that a function declares is kept in a byte. -/
def declaredLength (name : HalfHitch) : Nat :=
  name.count % 256

/-- `arg_buf` of `js_call_c_function`: at least `length` arguments can be read. -/
def argBuf (length : Nat) (argv : List JSValue) : List JSValue :=
  argv ++ List.replicate (length - argv.length) .undefined

/-- The loop of the callback over the indices below `argc`. -/
def readArguments (argc : Nat) (argv : List JSValue) : List JSValue :=
  (List.range argc).filterMap fun index => argv[index]?

/-- `js_check_stack_overflow` of a build without `CONFIG_STACK_CHECK`. -/
def jsCheckStackOverflow (_allocaSize : Nat) : Bool :=
  false

/-- `js_call_c_function` for a function with magic. -/
def jsCallCFunction (length : Nat) (function : Nat → List JSValue → Operation JSValue)
    (argv : List JSValue) : Operation JSValue :=
  if jsCheckStackOverflow (16 * length) then return .exception
  else function argv.length (argBuf length argv)

/-- A call of a function that was made under a name. -/
def callFromScript (name : HalfHitch) (state : BodyState)
    (run : JibFunctionBody → List Bytes → Operation (Option JibUnknown)) (magic : AnyPtr)
    (argv : List JSValue) : Operation JSValue :=
  jsCallCFunction (declaredLength name)
    (fun argc argBuf => callback (fun bodyPtr => (state.live bodyPtr).map run) magic
      (readArguments argc argBuf)) argv

theorem readArguments_self (argv : List JSValue) :
    readArguments argv.length argv = argv := by
  unfold readArguments
  induction argv with
  | nil => rfl
  | cons first rest ih =>
      rw [List.length_cons, List.range_succ_eq_map, List.filterMap_cons, List.filterMap_map]
      exact congrArg (first :: ·) ih

/-- Every entry of the buffer that is read is there, and none is padding. -/
theorem readArguments_argBuf (length : Nat) (argv : List JSValue) :
    readArguments argv.length (argBuf length argv) = argv := by
  have given : ∀ index ∈ List.range argv.length, (argBuf length argv)[index]? = argv[index]? :=
    fun index member => List.getElem?_append_left (List.mem_range.mp member)
  exact (List.filterMap_congr given).trans (readArguments_self argv)

/-- The converted arguments, and the state that their conversions leave. -/
def delivered {State : Type} (handle : Handler interface State) :
    List JSValue → State → List Bytes × State
  | [], state => ([], state)
  | argument :: rest, state =>
      let first := (jsValueToHitch argument).run handle state
      let others := delivered handle rest first.2
      (first.1.getD undefinedHitch :: others.1, others.2)

/-- What the function returns for the result of its body. -/
def convertedResult {State : Type} (handle : Handler interface State) :
    Option JibUnknown × State → JSValue × State
  | (some result, state) => result.createJibValue.run handle state
  | (none, state) => (.undefined, state)

/-- However many arguments a call has, its run is that of its body on their
conversions, followed by the conversion of the result. -/
def Delivers (name : HalfHitch) (creation : Creation) (during : BodyState) : Prop :=
  ∀ (run : JibFunctionBody → List Bytes → Operation (Option JibUnknown))
    (argv : List JSValue) (State : Type) (handle : Handler interface State) (state : State),
    ∃ magic, during.magicOf creation.function = some magic ∧
      (callFromScript name during run magic argv).run handle state =
        convertedResult handle ((run creation.body (delivered handle argv state).1).run handle
          (delivered handle argv state).2)

section

variable {State : Type} {handle : Handler interface State}

@[simp]
theorem length_delivered (argv : List JSValue) (state : State) :
    (delivered handle argv state).1.length = argv.length := by
  induction argv generalizing state with
  | nil => rfl
  | cons argument rest ih => simp [delivered, ih]

theorem run_parameters (argv : List JSValue) (state : State) :
    (mapEach callbackParameter argv).run handle state = delivered handle argv state := by
  induction argv generalizing state with
  | nil => rfl
  | cons argument rest ih => simp [run_mapEach_cons, callbackParameter, delivered, ih]

theorem run_callbackResult (result : Option JibUnknown × State) :
    (callbackResult result.1).run handle result.2 = convertedResult handle result := by
  rcases result with ⟨_ | result, state⟩ <;> rfl

theorem run_runBody (run : List Bytes → Operation (Option JibUnknown)) (argv : List JSValue)
    (state : State) :
    (runBody run argv).run handle state =
      convertedResult handle ((run (delivered handle argv state).1).run handle
        (delivered handle argv state).2) := by
  simp only [runBody, run_bind, run_parameters, run_callbackResult]

end

/-- The call reaches its body, which scripts cannot take from the function. -/
theorem delivers {creation : Creation} {during : BodyState} (intact : creation.Intact during)
    (name : HalfHitch) : Delivers name creation during := by
  intro run argv State handle state
  refine ⟨creation.bodyPtr, intact.magicOf, ?_⟩
  simp only [callFromScript, jsCallCFunction, jsCheckStackOverflow, Bool.false_eq_true, if_false,
    readArguments_argBuf, callback, intact.live, Option.map_some]
  exact run_runBody (run creation.body) argv state

end QuickJS

/-! ## JavaScriptCore -/

namespace JSC

/-- A call from a script.  `ofNull` is what the engine makes of a callback that
returns `NULL`. -/
def callFromScript (ofNull : JSValueRef) (context : JSGlobalContextRef) (state : BodyState)
    (run : JibFunctionBody → List Bytes → Operation (Option JibUnknown))
    (function : JSObjectRef) (arguments : List JSValueRef) : Operation JSValueRef := do
  let value ← callback (fun bodyPtr => (state.live bodyPtr).map run) context function
    (arguments.map some)
  return value.getD ofNull

/-- The converted arguments, and the state that their conversions leave. -/
def delivered {State : Type} (handle : Handler interface State)
    (context : JSGlobalContextRef) : List JSValueRef → State → List Bytes × State
  | [], state => ([], state)
  | argument :: rest, state =>
      let first := (jsValueToHitch context (some argument)).run handle state
      let others := delivered handle context rest first.2
      (first.1.getD undefinedHitch :: others.1, others.2)

/-- What the function should return for the result of its body. -/
def convertedResult {State : Type} (handle : Handler interface State) (ofNull : JSValueRef)
    (jib : JibFields) : Option JibUnknown × State → JSValueRef × State
  | (some result, state) =>
      let value := (result.createContextValue jib.context).run handle state
      (value.1.getD ofNull, value.2)
  | (none, state) => (jib.undefined, state)

/-- The engine gives properties and private data as the state has them. -/
structure ReadsBlocks (context : JSGlobalContextRef) (handle : Handler interface BodyState) :
    Prop where
  block : ∀ object state,
    (handle (.jsObjectGetProperty context object jibCallbackProperyName) state).1 =
      state.block object
  scripted : ∀ object state, BodyState.Scripted state
    (handle (.jsObjectGetProperty context object jibCallbackProperyName) state).2
  privateOf : ∀ object state,
    handle (.jsObjectGetPrivate object) state = (state.privateOf object, state)

/-- However many arguments a call has, its run is that of its body on their
conversions, followed by the conversion of the result. -/
def Delivers (ofNull : JSValueRef) (jib : JibFields) (creation : Creation)
    (during : BodyState) : Prop :=
  ∀ (run : JibFunctionBody → List Bytes → Operation (Option JibUnknown))
    (arguments : List JSValueRef) (handle : Handler interface BodyState),
    ReadsBlocks jib.context handle →
      let found := ((callbackBody jib.context creation.function).run handle during).2
      let parameters := delivered handle jib.context arguments found
      (callFromScript ofNull jib.context during run creation.function arguments).run handle
          during =
        convertedResult handle ofNull jib ((run creation.body parameters.1).run handle parameters.2)

/-- What is found behind `__jib_block` leads to the body. -/
def FindsBody (creation : Creation) (during : BodyState) : Prop :=
  ((during.block creation.function).bind during.privateOf).bind during.live =
    some creation.body

section

variable {handle : Handler interface BodyState} {context : JSGlobalContextRef}

@[simp]
theorem length_delivered (arguments : List JSValueRef) (state : BodyState) :
    (delivered handle context arguments state).1.length = arguments.length := by
  induction arguments generalizing state with
  | nil => rfl
  | cons argument rest ih => simp [delivered, ih]

theorem run_parameters (arguments : List JSValueRef) (state : BodyState) :
    (mapEach (callbackParameter context) arguments).run handle state =
      delivered handle context arguments state := by
  induction arguments generalizing state with
  | nil => rfl
  | cons argument rest ih => simp [run_mapEach_cons, callbackParameter, delivered, ih]

/-- The pointer that the callback finds. -/
theorem run_callbackBody (reads : ReadsBlocks context handle) (function : JSObjectRef)
    (state : BodyState) :
    ((callbackBody context function).run handle state).1 =
      (state.block function).bind state.privateOf := by
  have isBlock := reads.block function state
  have scripted := reads.scripted function state
  simp only [callbackBody, jsObjectGetProperty, call_bind, done_bind, run_call, isBlock]
  cases state.block function with
  | none => rfl
  | some object => simp [privateData, reads.privateOf, scripted.privateOf]

theorem run_callbackResult {State : Type} {handle : Handler interface State}
    {ofNull : JSValueRef} {jib : JibFields} (isUndefined : ofNull = jib.undefined)
    (result : Option JibUnknown × State) :
    (((callbackResult jib.context result.1).run handle result.2).1.getD ofNull,
        ((callbackResult jib.context result.1).run handle result.2).2) =
      convertedResult handle ofNull jib result := by
  rcases result with ⟨_ | result, state⟩
  · exact congrArg (·, state) isUndefined
  · rfl

/-- A call runs the body that it finds, or gives what `NULL` is taken for. -/
theorem run_callFromScript (reads : ReadsBlocks context handle) (ofNull : JSValueRef)
    (during : BodyState) (run : JibFunctionBody → List Bytes → Operation (Option JibUnknown))
    (function : JSObjectRef) (arguments : List JSValueRef) :
    let found := ((callbackBody context function).run handle during).2
    let parameters := delivered handle context arguments found
    (callFromScript ofNull context during run function arguments).run handle during =
      match ((during.block function).bind during.privateOf).bind during.live with
      | some body =>
          let result := (run body parameters.1).run handle parameters.2
          let value := (callbackResult context result.1).run handle result.2
          (value.1.getD ofNull, value.2)
      | none => (ofNull, found) := by
  simp only [callFromScript, callback, run_bind, run_callbackBody reads, pure_eq_done, run_done]
  cases (during.block function).bind during.privateOf with
  | none => rfl
  | some bodyPtr =>
      simp only [Option.bind_some]
      cases during.live bodyPtr with
      | none => rfl
      | some body => simp [callbackRun, run_parameters]

end

/-- An engine that answers from the state. -/
def blockHandle : Handler interface BodyState
  | .jsObjectGetProperty _ object _, state => (state.block object, state)
  | .jsObjectGetPrivate object, state => (state.privateOf object, state)
  | command, state => (emptyAnswer command, state)

theorem readsBlocks_blockHandle (context : JSGlobalContextRef) :
    ReadsBlocks context blockHandle where
  block _ _ := rfl
  scripted _ state := .refl state
  privateOf _ _ := rfl

/-- A body that only tells that it is the one. -/
def tellsBody (body : JibFunctionBody) (ofNull : JSValueRef) (other : JibFunctionBody)
    (_ : List Bytes) : Operation (Option JibUnknown) :=
  return some (.jibFunction ⟨0, some (if other = body then ofNull + 1 else ofNull), none⟩)

/-- The call reaches its body when the body is found, and returns `undefined` for
`nil` when that is what the engine takes `NULL` for. -/
theorem delivers_iff {ofNull : JSValueRef} {jib : JibFields} {creation : Creation}
    {during : BodyState} :
    Delivers ofNull jib creation during ↔
      FindsBody creation during ∧ ofNull = jib.undefined := by
  constructor
  · intro delivers
    have reads := readsBlocks_blockHandle jib.context
    have finds : FindsBody creation during := by
      have runs := delivers (tellsBody creation.body ofNull) [] blockHandle reads
      rw [run_callFromScript reads] at runs
      unfold FindsBody
      split at runs
      · rename_i body isBody
        by_contra isOther
        have differs : body ≠ creation.body := fun same => isOther (same ▸ isBody)
        simp [tellsBody, differs, convertedResult, callbackResult, JibUnknown.createContextValue]
          at runs
      · simp [tellsBody, convertedResult, JibUnknown.createContextValue] at runs
    refine ⟨finds, ?_⟩
    have runs := delivers (fun _ _ => return none) [] blockHandle reads
    rw [run_callFromScript reads, show _ = some creation.body from finds] at runs
    exact congrArg Prod.fst runs
  · rintro ⟨finds, isUndefined⟩ run arguments handle reads
    rw [run_callFromScript reads, show _ = some creation.body from finds]
    exact run_callbackResult isUndefined _

end JSC

/-! ## Both backends -/

/-- Every argument of a call reaches the body, and its result the caller: with
QuickJS always, with JavaScriptCore when the body is found behind `__jib_block` and
`NULL` is taken for `undefined`. -/
theorem called_delivers_iff {D : Type} {global : QuickJS.JSValue}
    {creation : QuickJS.Creation} {during : QuickJS.BodyState}
    (called : QuickJS.Called D global creation during) (name : HalfHitch)
    (ofNull : JSC.JSValueRef) (jib : JSC.JibFields) (jscCreation : JSC.Creation)
    (jscDuring : JSC.BodyState) :
    QuickJS.Delivers name creation during ∧
      (JSC.Delivers ofNull jib jscCreation jscDuring ↔
        JSC.FindsBody jscCreation jscDuring ∧ ofNull = jib.undefined) := by
  constructor
  · obtain ⟨config, operation, command, next, reaches, issues, scripted, created⟩ := called
    exact QuickJS.delivers (QuickJS.intact_of_scripted reaches issues scripted created) name
  · exact JSC.delivers_iff

theorem made_delivers :
    QuickJS.Delivers bodyName ⟨0, 0, 1⟩ QuickJS.madeState ∧
      JSC.Delivers 0 JSC.someJib ⟨1, 2, 0, 1⟩ JSC.madeState := by
  have both := called_delivers_iff QuickJS.called_madeState bodyName 0 JSC.someJib ⟨1, 2, 0, 1⟩
    JSC.madeState
  exact ⟨both.1, both.2.mpr ⟨rfl, rfl⟩⟩

/-- A call of a function whose `__jib_block` has been deleted does not reach its
body, whatever the engine takes `NULL` for. -/
theorem deleted_not_delivers :
    JSC.Called Unit JSC.someJib ⟨1, 2, 0, 1⟩ JSC.deletedState ∧
      ∀ ofNull, ¬JSC.Delivers ofNull JSC.someJib ⟨1, 2, 0, 1⟩ JSC.deletedState := by
  have scripted : JSC.madeState.Scripted JSC.deletedState :=
    ⟨rfl, rfl, rfl, le_refl _, rfl, rfl, rfl⟩
  refine ⟨JSC.called_of_scripted scripted, ?_⟩
  intro ofNull delivers
  cases (JSC.delivers_iff.mp delivers).1

end Jib
