import Jib.JSCPublicOperations
import Jib.NestedCalls
import Jib.QuickJSPublicOperations

/-!
# Swift bodies that call back into their Jib

Both backends hold the lock while the engine runs scripts, and scripts run
Swift bodies.  A body is a client of the public operations of the same `Jib`;
the callback around it converts its arguments and its result, which may run
scripts and further bodies.
-/

namespace CommandProgram.Program

variable {I : Interface} {α : Type}

theorem Enclosed.alternates {program : Program I α} (enclosed : program.Enclosed) :
    program.Alternates true := by
  induction program with
  | done value => exact enclosed.elim
  | acquire next => exact enclosed.elim
  | release next =>
      obtain ⟨value, rfl⟩ := enclosed
      exact ⟨rfl, rfl⟩
  | call command next ih => exact fun answer => ih answer (enclosed answer)

theorem Guarded.alternates {program : Program I α} (guarded : program.Guarded) :
    program.Alternates false := by
  cases program with
  | done value => exact guarded.elim
  | acquire next =>
      have enclosed : next.Enclosed := guarded
      exact ⟨rfl, enclosed.alternates⟩
  | release next => exact guarded.elim
  | call command next => exact guarded.elim

theorem Uses.neverLocks {Allowed : I.Command → Prop} {program : Program I α}
    (uses : program.Uses Allowed) : program.NeverLocks :=
  uses.mono fun _ _ => trivial

end CommandProgram.Program

open CommandProgram Program

namespace Jib.QuickJS

variable {D : Type}

/-- The engine calls that can run a script. -/
def Command.runsScripts : Command → Bool
  | .jsEval .. => true
  | .jsCall .. => true
  | .jsToCString _ => true
  | .jsJSONStringify .. => true
  | .jsSetProperty .. => true
  | .jsArrayPush .. => true
  | _ => false

/-- A body of a Swift function. -/
abbrev JibBody (D : Type) :=
  List Bytes → Client (PublicOperation D) (Reply D) (Option JibUnknown)

/-- The callback of the function with `magic` on `arguments`. -/
def runCallback (global : JSValue) (bodies : AnyPtr → Option (JibBody D))
    (magic : AnyPtr) (arguments : List JSValue) : Operation JSValue :=
  callback (fun pointer => (bodies pointer).map fun body parameters =>
    (body parameters).program (PublicOperation.program global)) magic arguments

/-- What one thread can do with a `Jib`. -/
def nesting (global : JSValue) (bodies : AnyPtr → Option (JibBody D)) :
    Nesting interface (PublicOperation D) (AnyPtr × List JSValue) where
  operation operation := operation.program global >>= fun _ => .done ()
  callback call := runCallback global bodies call.1 call.2 >>= fun _ => .done ()
  Reenters command := command.runsScripts = true

theorem alternates_program (global : JSValue) (operation : PublicOperation D) :
    (operation.program global).Alternates false :=
  (operation.guarded_program global).alternates

theorem neverLocks_callbackParameter (argument : JSValue) :
    (callbackParameter argument).NeverLocks :=
  ((reading_jsValueToHitch argument).bind fun _ => by simp).neverLocks

theorem neverLocks_callbackResult (result : Option JibUnknown) :
    (callbackResult result).NeverLocks := by
  cases result with
  | none => trivial
  | some result => exact (quiet_createJibValue result).plain.neverLocks

theorem alternates_runCallback (global : JSValue)
    (bodies : AnyPtr → Option (JibBody D)) (magic : AnyPtr)
    (arguments : List JSValue) :
    (runCallback global bodies magic arguments).Alternates false := by
  unfold runCallback callback
  split
  · rename_i run isRun
    obtain ⟨body, _, rfl⟩ := Option.map_eq_some_iff.mp isRun
    have converted : (mapEach callbackParameter arguments).NeverLocks :=
      Uses.mapEach neverLocks_callbackParameter arguments
    refine converted.alternates.bind fun parameters => ?_
    apply (Client.alternates (alternates_program global) (body parameters)).bind
    exact fun result => (neverLocks_callbackResult result).alternates
  · rfl

/-- A callback whose body performs no operation never locks. -/
theorem neverLocks_runCallback {global : JSValue}
    {bodies : AnyPtr → Option (JibBody D)} {magic : AnyPtr}
    (silent : ∀ body, bodies magic = some body →
      ∀ parameters, ∃ result, body parameters = .done result)
    (arguments : List JSValue) :
    (runCallback global bodies magic arguments).NeverLocks := by
  unfold runCallback callback
  split
  · rename_i run isRun
    obtain ⟨body, isBody, rfl⟩ := Option.map_eq_some_iff.mp isRun
    apply Uses.bind (Uses.mapEach neverLocks_callbackParameter arguments)
    intro parameters
    obtain ⟨result, isDone⟩ := silent body isBody parameters
    simp only [isDone]
    exact neverLocks_callbackResult result
  · trivial

/-- Evaluating a script gets to the engine with the lock held. -/
theorem eval_reachesInside (global : JSValue) (bodies : AnyPtr → Option (JibBody D)) :
    ((nesting global bodies).operation (.eval (.ofBytes [120]))).ReachesInside
      (nesting global bodies).Reenters false :=
  Or.inl ⟨rfl, rfl⟩

theorem alternates_operation (global : JSValue) (bodies : AnyPtr → Option (JibBody D))
    (operation : PublicOperation D) :
    ((nesting global bodies).operation operation).Alternates false :=
  (alternates_program global operation).bind fun _ => rfl

theorem alternates_callback (global : JSValue) (bodies : AnyPtr → Option (JibBody D))
    (call : AnyPtr × List JSValue) :
    ((nesting global bodies).callback call).Alternates false :=
  (alternates_runCallback global bodies call.1 call.2).bind fun _ => rfl

/-- Where no body performs an operation on its own `Jib`, no thread blocks on
itself. -/
theorem never_selfBlocked_of_silent {global : JSValue}
    {bodies : AnyPtr → Option (JibBody D)}
    (silent : ∀ magic body, bodies magic = some body →
      ∀ parameters, ∃ result, body parameters = .done result)
    {nested : Nested interface}
    (reaches : Nested.Reaches (nesting global bodies) .idle nested) :
    ¬ nested.SelfBlocked := by
  have neverLocks : ∀ call, ((nesting global bodies).callback call).NeverLocks := by
    intro call
    exact (neverLocks_map _ _).mpr (neverLocks_runCallback (silent call.1) call.2)
  exact (Nested.never_selfBlocked_iff_neverLocks (alternates_operation global bodies)
    (alternates_callback global bodies) (eval_reachesInside global bodies)).mpr
      neverLocks nested reaches

/-- A body that collects garbage in its own `Jib`. -/
def collectingBody : JibBody Unit := fun _ => .perform .garbageCollect fun _ => .done none

end Jib.QuickJS

namespace Jib.JSC

variable {D : Type}

/-- The engine calls that can run a script. -/
def Command.runsScripts : Command → Bool
  | .jsEvaluateScript .. => true
  | .jsObjectCallAsFunction .. => true
  | .jsObjectGetProperty .. => true
  | .jsObjectSetProperty .. => true
  | .jsObjectCopyPropertyNames .. => true
  | .jsValueToNumber .. => true
  | .jsValueToStringCopy .. => true
  | .jsValueCreateJSONString .. => true
  | _ => false

/-- A body of a Swift function. -/
abbrev JibBody (D : Type) :=
  List Bytes → Client (PublicOperation D) (Reply D) (Option JibUnknown)

/-- The callback of `function` on `arguments`. -/
def runCallback (jib : JibFields) (bodies : Address → Option (JibBody D))
    (function : JSObjectRef) (arguments : List (Option JSValueRef)) :
    Operation (Option JSValueRef) :=
  callback (fun pointer => (bodies pointer).map fun body parameters =>
    (body parameters).program (PublicOperation.program jib)) jib.context function arguments

/-- What one thread can do with a `Jib`. -/
def nesting (jib : JibFields) (bodies : Address → Option (JibBody D)) :
    Nesting interface (PublicOperation D)
      (JSObjectRef × List (Option JSValueRef)) where
  operation operation := operation.program jib >>= fun _ => .done ()
  callback call := runCallback jib bodies call.1 call.2 >>= fun _ => .done ()
  Reenters command := command.runsScripts = true

theorem Shaped.alternates {α : Type} {program : Operation α} (shaped : Shaped program) :
    program.Alternates false := by
  obtain ⟨_, absent, body, rest, free, restFree, _, rfl⟩ := shaped
  refine Alternates.bind ?_ fun value => (restFree value).neverLocks.alternates
  intro released
  change Alternates false (if released = true then _ else locked body)
  split
  · rfl
  · exact alternates_locked free

theorem alternates_program (jib : JibFields) (operation : PublicOperation D) :
    (operation.program jib).Alternates false :=
  (operation.shaped_program jib).alternates

theorem neverLocks_callbackParameter (context : JSGlobalContextRef)
    (argument : JSValueRef) : (callbackParameter context argument).NeverLocks :=
  ((readsOnly_jsValueToHitch context (some argument)).reading.bind fun _ => by simp).neverLocks

theorem neverLocks_callbackResult (context : JSGlobalContextRef)
    (result : Option JibUnknown) : (callbackResult context result).NeverLocks := by
  cases result with
  | none => trivial
  | some result => exact (light_createContextValue context result).neutral.lockFree.neverLocks

theorem neverLocks_privateData (object : Option JSObjectRef) :
    (privateData object).NeverLocks := by
  cases object with
  | none => trivial
  | some object => exact ⟨trivial, fun _ => trivial⟩

theorem alternates_runCallback (jib : JibFields)
    (bodies : Address → Option (JibBody D)) (function : JSObjectRef)
    (arguments : List (Option JSValueRef)) :
    (runCallback jib bodies function arguments).Alternates false := by
  intro myCallbackIdValue
  refine (neverLocks_privateData myCallbackIdValue).alternates.bind fun bodyPtr => ?_
  split
  · rename_i run isRun
    obtain ⟨pointer, _, isMapped⟩ := Option.bind_eq_some_iff.mp isRun
    obtain ⟨body, _, rfl⟩ := Option.map_eq_some_iff.mp isMapped
    have converted : (mapEach (callbackParameter jib.context)
        (arguments.filterMap id)).NeverLocks :=
      Uses.mapEach (neverLocks_callbackParameter jib.context) _
    refine converted.alternates.bind fun parameters => ?_
    apply (Client.alternates (alternates_program jib) (body parameters)).bind
    exact fun result => (neverLocks_callbackResult jib.context result).alternates
  · rfl

/-- A callback whose body performs no operation never locks. -/
theorem neverLocks_runCallback {jib : JibFields}
    {bodies : Address → Option (JibBody D)}
    (silent : ∀ pointer body, bodies pointer = some body →
      ∀ parameters, ∃ result, body parameters = .done result)
    (function : JSObjectRef) (arguments : List (Option JSValueRef)) :
    (runCallback jib bodies function arguments).NeverLocks := by
  refine ⟨trivial, fun myCallbackIdValue => ?_⟩
  have found : (privateData myCallbackIdValue).NeverLocks :=
    neverLocks_privateData myCallbackIdValue
  refine found.bind fun bodyPtr => ?_
  split
  · rename_i run isRun
    obtain ⟨pointer, _, isMapped⟩ := Option.bind_eq_some_iff.mp isRun
    obtain ⟨body, isBody, rfl⟩ := Option.map_eq_some_iff.mp isMapped
    apply Uses.bind (Uses.mapEach (neverLocks_callbackParameter jib.context) _)
    intro parameters
    obtain ⟨result, isDone⟩ := silent pointer body isBody parameters
    simp only [isDone]
    exact neverLocks_callbackResult jib.context result
  · trivial

/-- Evaluating a script gets to the engine with the lock held. -/
theorem eval_reachesInside (jib : JibFields) (bodies : Address → Option (JibBody D)) :
    ((nesting jib bodies).operation (.eval (.ofBytes [120]))).ReachesInside
      (nesting jib bodies).Reenters false :=
  Or.inr ⟨false, Or.inr ⟨some ⟨0, [120]⟩, Or.inl ⟨rfl, rfl⟩⟩⟩

theorem alternates_operation (jib : JibFields) (bodies : Address → Option (JibBody D))
    (operation : PublicOperation D) :
    ((nesting jib bodies).operation operation).Alternates false :=
  (alternates_program jib operation).bind fun _ => rfl

theorem alternates_callback (jib : JibFields) (bodies : Address → Option (JibBody D))
    (call : JSObjectRef × List (Option JSValueRef)) :
    ((nesting jib bodies).callback call).Alternates false :=
  (alternates_runCallback jib bodies call.1 call.2).bind fun _ => rfl

/-- Where no body performs an operation on its own `Jib`, no thread blocks on
itself. -/
theorem never_selfBlocked_of_silent {jib : JibFields}
    {bodies : Address → Option (JibBody D)}
    (silent : ∀ pointer body, bodies pointer = some body →
      ∀ parameters, ∃ result, body parameters = .done result)
    {nested : Nested interface}
    (reaches : Nested.Reaches (nesting jib bodies) .idle nested) :
    ¬ nested.SelfBlocked := by
  have neverLocks : ∀ call, ((nesting jib bodies).callback call).NeverLocks := by
    intro call
    exact (neverLocks_map _ _).mpr (neverLocks_runCallback silent call.1 call.2)
  exact (Nested.never_selfBlocked_iff_neverLocks (alternates_operation jib bodies)
    (alternates_callback jib bodies) (eval_reachesInside jib bodies)).mpr
      neverLocks nested reaches

/-- A body that collects garbage in its own `Jib`. -/
def collectingBody : JibBody Unit := fun _ => .perform .garbageCollect fun _ => .done none

end Jib.JSC

namespace Jib

/-- In both backends a thread never blocks on itself exactly when no callback
can lock, that is, when no Swift body performs a public operation on the `Jib`
by which it is run. -/
theorem never_selfBlocked_iff {D : Type} (global : QuickJS.JSValue)
    (bodies : QuickJS.AnyPtr → Option (QuickJS.JibBody D)) (jib : JSC.JibFields)
    (jscBodies : JSC.Address → Option (JSC.JibBody D)) :
    ((∀ nested, Nested.Reaches (QuickJS.nesting global bodies) .idle nested →
        ¬ nested.SelfBlocked) ↔
      ∀ magic arguments, (QuickJS.runCallback global bodies magic arguments).NeverLocks) ∧
    ((∀ nested, Nested.Reaches (JSC.nesting jib jscBodies) .idle nested →
        ¬ nested.SelfBlocked) ↔
      ∀ function arguments,
        (JSC.runCallback jib jscBodies function arguments).NeverLocks) := by
  constructor
  · rw [Nested.never_selfBlocked_iff_neverLocks (QuickJS.alternates_operation global bodies)
      (QuickJS.alternates_callback global bodies)
      (QuickJS.eval_reachesInside global bodies), Prod.forall]
    simp only [QuickJS.nesting, neverLocks_map]
  · rw [Nested.never_selfBlocked_iff_neverLocks (JSC.alternates_operation jib jscBodies)
      (JSC.alternates_callback jib jscBodies)
      (JSC.eval_reachesInside jib jscBodies), Prod.forall]
    simp only [JSC.nesting, neverLocks_map]

/-- A script that runs a body that collects garbage blocks its thread. -/
theorem eval_selfBlocked :
    (∃ nested, Nested.Reaches
        (QuickJS.nesting .undefined fun _ => some QuickJS.collectingBody) .idle nested ∧
      nested.SelfBlocked) ∧
    (∃ nested, Nested.Reaches
        (JSC.nesting ⟨0, 0, 0, 0, 0, 0⟩ fun _ => some JSC.collectingBody) .idle nested ∧
      nested.SelfBlocked) := by
  constructor
  · have acquires : ((QuickJS.nesting .undefined fun _ =>
        some QuickJS.collectingBody).callback (0, [])).ReachesAcquire := trivial
    exact Nested.exists_selfBlocked (QuickJS.alternates_operation _ _ _)
      (QuickJS.eval_reachesInside _ _) acquires
  · have acquires : ((JSC.nesting ⟨0, 0, 0, 0, 0, 0⟩ fun _ =>
        some JSC.collectingBody).callback (0, [])).ReachesAcquire :=
      ⟨some 0, some 0, false, trivial⟩
    exact Nested.exists_selfBlocked (JSC.alternates_operation _ _ _)
      (JSC.eval_reachesInside _ _) acquires

end Jib
