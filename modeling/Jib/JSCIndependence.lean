import Jib.JSCClones

/-!
# When a clone is independent

The constructor of a clone hands every value that it reads from the global
object of its source to the clone's.  Where none of them is an object, the two
heaps stay apart and each side frees only its own bodies, whatever is done with
the two afterwards and in whatever order they are released.
-/

namespace Jib.JSC.Clones

open CommandProgram Program GroupedHeaps CloneState

variable {D : Type} {setting : Setting} {functions : Side → List JibFunction}
  {before state after : CloneState} {side : Side}

/-! ## The end and the start of an operation -/

/-- How operations end: the functions of the clone that they give to the
program are its own. -/
def Ends (setting : Setting) (reply : Reply D) (state : CloneState) : Prop :=
  Intact setting state.functions state ∧
    ∀ function ∈ reply.functions, ∀ address ∈ function.bodyPtr,
      setting.makerOf address = .clone → function ∈ state.functions .clone

theorem ends_of_no_functions {reply : Reply D} (intact : Intact setting state.functions state)
    (noFunctions : reply.functions = []) : Ends setting reply state := by
  refine ⟨intact, ?_⟩
  rw [noFunctions]
  simp

theorem Intact.hold (intact : Intact setting state.functions state) {held : List JibFunction}
    (own : ∀ function ∈ held, function ∈ state.held ∨ ∀ address ∈ function.bodyPtr,
      setting.makerOf address = .clone → function ∈ state.functions .clone) :
    Intact setting state.functions { state with held := held } where
  separated := intact.separated
  made := intact.made
  printed := intact.printed
  held := by
    intro notEnded function isHeld address isBody isClone
    rcases own function isHeld with wasHeld | isOwn
    · exact intact.held notEnded function wasHeld address isBody isClone
    · exact isOwn address isBody isClone
  retained := intact.retained
  live := intact.live

theorem Ends.finish {reply : Reply D} (ends : Ends setting reply state)
    (operation : CloneOperation D) :
    Intact setting (operation.finish reply state).functions (operation.finish reply state) := by
  obtain ⟨intact, own⟩ := ends
  have given : Intact setting state.functions
      { state with held := reply.functions ++ state.held } := by
    apply intact.hold
    intro function isHeld
    rcases List.mem_append.mp isHeld with isGiven | wasHeld
    · exact .inr (own function isGiven)
    · exact .inl wasHeld
  have erased : ∀ function, Intact setting state.functions
      { state with held := state.held.erase function } := fun function =>
    intact.hold fun other isHeld => .inl (List.mem_of_mem_erase isHeld)
  cases operation with
  | create printBody => exact given
  | perform side operation => exact given
  | release side dropped droppedPrint => exact given
  | drop function => exact erased function
  | deallocate side function => exact erased function

/-- Whose operation runs does not matter, and ending the clone only asks for
less. -/
theorem Intact.enter (intact : Intact setting state.functions state)
    (operation : CloneOperation D) (enabled : operation.Enabled setting state) :
    Intact setting (operation.enter state).functions (operation.enter state) := by
  cases operation with
  | create printBody =>
      have unmade : state.phase = .unmade := enabled
      have notEnded : state.phase ≠ .ended := by simp [unmade]
      exact ⟨intact.separated, intact.made, intact.printed, fun _ => intact.held notEnded,
        fun _ => intact.retained notEnded, fun _ => intact.live notEnded⟩
  | perform side operation =>
      exact ⟨intact.separated, intact.made, intact.printed, intact.held, intact.retained,
        intact.live⟩
  | release side dropped droppedPrint =>
      cases side with
      | source =>
          exact ⟨intact.separated, intact.made, intact.printed, intact.held, intact.retained,
            intact.live⟩
      | clone =>
          exact ⟨intact.separated, intact.made, intact.printed, fun ended => (ended rfl).elim,
            fun ended => (ended rfl).elim, fun ended => (ended rfl).elim⟩
  | drop function => exact intact
  | deallocate side function =>
      exact ⟨intact.separated, intact.made, intact.printed, intact.held, intact.retained,
        intact.live⟩

/-! ## Public operations -/

theorem satisfies_perform {operation : PublicOperation D}
    (intact : Intact setting state.functions state) (isSide : state.side = side)
    (own : ∀ value ∈ operation.values, setting.Owns side value) :
    (operation.program (setting.jibs side)).Satisfies setting.effect (StaysIndependent setting)
      (Ends setting) state := by
  by_cases isNew : ∃ name body, operation = .newFunction name body
  · obtain ⟨name, body, rfl⟩ := isNew
    refine Satisfies.bind ((satisfies_newFunction name body intact isSide).mono ?_)
    rintro made after ⟨intactAfter, _, isMade⟩
    refine ⟨intactAfter, ?_⟩
    intro function isReply address isBody isClone
    have isFunction := (isMade function (by simpa [Reply.functions] using isReply)).1
    obtain rfl : side = .clone :=
      (intactAfter.made side function isFunction address isBody).symm.trans isClone
    exact isFunction
  · have notNew : ∀ name body, operation ≠ .newFunction name body :=
      fun name body same => isNew ⟨name, body, same⟩
    apply (satisfies_of_passes intact
      (PublicOperation.passes (setting.values side) own notNew)).mono
    rintro reply after ⟨found, intactAfter, onlyHeap⟩
    refine ⟨by rwa [onlyHeap.functions], ?_⟩
    intro function isReply address isBody
    rw [(found function isReply).1] at isBody
    cases isBody

/-! ## The constructor -/

/-- The effect of commands in a run that copies no object. -/
abbrev Setting.copying (setting : Setting) : Effect interface CloneState :=
  fun command state answer after =>
    setting.effect command state answer after ∧ setting.CopiesNoObject command state answer

theorem satisfies_copying {α : Type} {post : α → CloneState → Prop} {program : Operation α}
    (satisfies : program.Satisfies setting.effect (StaysIndependent setting) post state) :
    program.Satisfies setting.copying (StaysIndependent setting) post state :=
  satisfies.narrow fun _ _ _ _ moves => moves.1

theorem Setting.owns_of_no_object {value : JSValueRef} (noObject : setting.groupOf value = none) :
    setting.Owns side value := by
  simp [Owned, noObject]

theorem ownGlobal : setting.Owns side (setting.jibs side).global :=
  setting.values side _ (by simp [JibFields.values])

/-- Before and after each round of the loop over the names. -/
def Copying (setting : Setting) (functions : Side → List JibFunction) (state : CloneState) : Prop :=
  Intact setting functions state ∧ state.functions = functions ∧ state.side = .clone

theorem Copying.onlyHeap (copying : Copying setting functions before)
    (onlyHeap : OnlyHeap before after) (separated : Separated setting.groupOf after.slots) :
    Copying setting functions after :=
  ⟨copying.1.onlyHeap onlyHeap separated, onlyHeap.functions.trans copying.2.1,
    onlyHeap.side.trans copying.2.2⟩

theorem satisfies_copyProperty (name : JSStringRef) (copying : Copying setting functions state) :
    (copyProperty (setting.jibs .clone) (setting.jibs .source) (setting.jibs .source).global
      name).Satisfies setting.copying (StaysIndependent setting)
      (fun _ after => Copying setting functions after) state := by
  refine ⟨copying.1.independent, ?_⟩
  rintro value read ⟨moves, heeds⟩
  have noObject := heeds copying.2.2 rfl
  obtain ⟨onlyHeap, separated, _⟩ := Setting.Runs.owned moves copying.1.separated
    (by simpa using ownGlobal)
  have copying := copying.onlyHeap onlyHeap separated
  refine ⟨copying.1.independent, ?_⟩
  rintro exception assigned ⟨moves, _⟩
  have own : ∀ given ∈ (setting.jibs .clone).global :: value.toList,
      setting.Owns .clone given := by
    intro given isGiven
    rcases List.mem_cons.mp isGiven with rfl | isValue
    · exact ownGlobal
    · exact Setting.owns_of_no_object (noObject given (by simpa using isValue))
  obtain ⟨onlyHeap, separated, _⟩ := Setting.Runs.owned moves copying.1.separated own
  exact copying.onlyHeap onlyHeap separated

theorem satisfies_copyGlobals (copying : Copying setting functions state) :
    (copyGlobals (setting.jibs .clone) (some (setting.jibs .source))).Satisfies setting.copying
      (StaysIndependent setting) (fun _ after => Copying setting functions after) state := by
  refine ⟨copying.1.independent, ?_⟩
  rintro cloneGlobal _ ⟨⟨isGlobal, rfl⟩, _⟩
  obtain rfl := isGlobal .source rfl
  refine ⟨copying.1.independent, ?_⟩
  rintro names named ⟨moves, _⟩
  obtain ⟨onlyHeap, separated, _⟩ := Setting.Runs.owned moves copying.1.separated
    (by simpa using ownGlobal)
  have copying := copying.onlyHeap onlyHeap separated
  have rounds : ∀ name (rest : List JSStringRef) now, Copying setting functions now →
      (copyProperty (setting.jibs .clone) (setting.jibs .source) (setting.jibs .source).global
        name).Satisfies setting.copying (StaysIndependent setting)
        (fun _ after => Copying setting functions after) now :=
    fun name _ _ copying => satisfies_copyProperty name copying
  change Satisfies _ _ _ (forEach _ names.names >>= _) _
  refine Satisfies.bind ((satisfies_forEach (fun _ => Copying setting functions) rounds
    names.names copying).mono ?_)
  intro _ copied copying
  refine ⟨copying.1.independent, ?_⟩
  rintro _ _ ⟨rfl, _⟩
  exact copying

/-- A program of one side that passes on its own values, in the constructor. -/
theorem Copying.satisfies_of_passes {α : Type} {post : α → Prop} {program : Operation α}
    (copying : Copying setting functions state)
    (passes : Passes (setting.jibs .clone).context (setting.Owns .clone)
      (fun object => state.privateOf object = none) post program) :
    program.Satisfies setting.copying (StaysIndependent setting)
      (fun _ after => Copying setting functions after) state := by
  refine satisfies_copying ((Clones.satisfies_of_passes copying.1 passes).mono ?_)
  rintro value after ⟨_, intact, onlyHeap⟩
  exact copying.onlyHeap onlyHeap intact.separated

theorem satisfies_installConsole {printFn : Option JibFunction}
    (own : ∀ function ∈ printFn, OwnOption (setting.Owns .clone) function.objectRef)
    (copying : Copying setting functions state) :
    (installConsole (setting.jibs .clone) printFn).Satisfies setting.copying
      (StaysIndependent setting) (fun _ after => Copying setting functions after) state := by
  cases printFn with
  | none => exact copying
  | some function =>
      have ownValue : setting.Owns .clone
          (function.objectRef.getD (setting.jibs .clone).undefined) := by
        cases isObject : function.objectRef with
        | none => exact setting.values .clone _ (by simp [JibFields.values])
        | some object => exact own function rfl object isObject
      change Satisfies _ _ _ (setGlobal _ printName function >>= _) _
      refine Satisfies.bind ((copying.satisfies_of_passes
        (passes_setGlobalValue (setting.values .clone) printName ownValue)).mono ?_)
      intro _ installed copying
      change Satisfies _ _ _ (eval _ consoleScript >>= _) _
      have evaluated : Passes (setting.jibs .clone).context (setting.Owns .clone)
          (fun object => installed.privateOf object = none) (fun _ => True)
          (eval (setting.jibs .clone) consoleScript) :=
        passes_unlessReleased trivial (passes_jsString consoleScript trivial passes_evalScript)
      exact Satisfies.bind ((copying.satisfies_of_passes evaluated).mono fun _ _ keeps => keeps)

theorem satisfies_initJib (printBody : JibFunctionBody)
    (intact : Intact setting state.functions state) (isClone : state.side = .clone) :
    (initJib (some (setting.jibs .source)) printBody).Satisfies setting.copying
      (StaysIndependent setting) (fun _ after => Intact setting after.functions after) state := by
  refine ⟨intact.independent, ?_⟩
  rintro group _ ⟨⟨rfl, rfl⟩, _⟩
  refine ⟨intact.independent, ?_⟩
  rintro context _ ⟨⟨rfl, rfl⟩, _⟩
  refine ⟨intact.independent, ?_⟩
  rintro global _ ⟨⟨isGlobal, rfl⟩, _⟩
  obtain rfl := isGlobal .clone rfl
  refine ⟨intact.independent, ?_⟩
  rintro undefined _ ⟨⟨isUndefined, rfl⟩, _⟩
  obtain rfl := isUndefined .clone rfl
  refine ⟨intact.independent, ?_⟩
  rintro trueValue _ ⟨⟨isTrue, rfl⟩, _⟩
  obtain rfl := isTrue .clone rfl
  refine ⟨intact.independent, ?_⟩
  rintro falseValue state ⟨⟨isFalse, rfl⟩, _⟩
  obtain rfl := isFalse .clone rfl
  change Satisfies _ _ _ (copyGlobals (setting.jibs .clone) (some (setting.jibs .source)) >>= _) _
  have copying : Copying setting state.functions state := ⟨intact, rfl, isClone⟩
  refine Satisfies.bind ((satisfies_copyGlobals copying).mono ?_)
  intro _ copied copying
  change Satisfies _ _ _ (setGlobalValue (setting.jibs .clone) globalName _ >>= _) _
  refine Satisfies.bind ((copying.satisfies_of_passes
    (passes_setGlobalValue (setting.values .clone) globalName ownGlobal)).mono ?_)
  rintro _ named ⟨intact, sameFunctions, isClone⟩
  rw [← sameFunctions] at intact
  change Satisfies _ _ _ (newFunction (setting.jibs .clone) printName printBody >>= _) _
  refine Satisfies.bind ((satisfies_copying
    (satisfies_newFunction printName printBody intact isClone)).mono ?_)
  rintro printFn made ⟨intact, isClone, isMade⟩
  refine ⟨intact.independent, ?_⟩
  rintro _ _ ⟨rfl, _⟩
  have own : ∀ function ∈ printFn, ∀ address ∈ function.bodyPtr,
      setting.makerOf address = made.side := by
    intro function isPrint address isBody
    rw [isClone]
    exact intact.made .clone function (isMade function isPrint).1 address isBody
  have copying : Copying setting made.functions
      { made with printFn := Function.update made.printFn made.side printFn } :=
    ⟨intact.setPrint own, rfl, isClone⟩
  change Satisfies _ _ _ (installConsole (setting.jibs .clone) printFn >>= _) _
  refine Satisfies.bind ((satisfies_installConsole
    (fun function isPrint => (isMade function isPrint).2) copying).mono ?_)
  rintro _ after ⟨intact, sameFunctions, _⟩
  rw [← sameFunctions] at intact
  exact intact

/-! ## Every run -/

theorem mem_of_mem_dropped {function : JibFunction} (isDropped : function ∈ state.dropped side) :
    function ∈ state.functions side :=
  (List.mem_filter.mp isDropped).1

theorem mem_of_mem_droppedPrint {function : JibFunction}
    (isDropped : function ∈ state.droppedPrint side) : function ∈ state.printFn side := by
  obtain ⟨isPrint, _⟩ := Option.filter_eq_some_iff.mp isDropped
  exact isPrint

theorem satisfies_release (intact : Intact setting state.functions state)
    {dropped : List JibFunction} {droppedPrint : Option JibFunction}
    (isSide : state.side = side) (notClone : state.phase ≠ .ended → side ≠ .clone)
    (isDropped : dropped = state.dropped side) (isPrint : droppedPrint = state.droppedPrint side) :
    ((CloneOperation.release side dropped droppedPrint : CloneOperation D).program
      setting).Satisfies setting.effect (StaysIndependent setting) (Ends setting) state := by
  subst isDropped isPrint
  refine Satisfies.bind (Satisfies.locked ((satisfies_releaseBody intact isSide notClone
    (fun _ => mem_of_mem_dropped) (fun _ => mem_of_mem_droppedPrint)).mono ?_))
  intro _ after intactAfter
  exact ends_of_no_functions intactAfter rfl

theorem satisfies_operation (operation : CloneOperation D)
    (intact : Intact setting state.functions state)
    (enabled : operation.Enabled setting state) :
    (operation.program setting).Satisfies setting.copying (StaysIndependent setting)
      (Ends setting) (operation.enter state) := by
  have entered := intact.enter operation enabled
  cases operation with
  | create printBody =>
      refine Satisfies.bind ((satisfies_initJib printBody entered rfl).mono ?_)
      intro _ after intactAfter
      exact ends_of_no_functions intactAfter rfl
  | perform side operation =>
      exact satisfies_copying (satisfies_perform entered rfl enabled.2)
  | release side dropped droppedPrint =>
      obtain ⟨_, isDropped, isPrint⟩ := enabled
      cases side with
      | source =>
          exact satisfies_copying (satisfies_release entered rfl (by simp) isDropped isPrint)
      | clone =>
          exact satisfies_copying (satisfies_release entered rfl (fun ended => (ended rfl).elim)
            isDropped isPrint)
  | drop function => exact ends_of_no_functions entered rfl
  | deallocate side function =>
      obtain ⟨isHeld, notStored, _⟩ := enabled
      have spare : Spare state.functions
          ((CloneOperation.deallocate side function : CloneOperation D).enter state)
            function.bodyPtr := by
        apply entered.spare
        intro notEnded address isBody isClone
        exact notStored ⟨.clone, .inl (intact.held notEnded function isHeld address isBody isClone)⟩
      refine satisfies_copying (Satisfies.bind ((satisfies_deinit entered spare).mono ?_))
      rintro _ after ⟨intactAfter, framed⟩
      rw [← framed.functions] at intactAfter
      exact ends_of_no_functions intactAfter rfl

theorem contract_copying :
    ((cloneMachine (D := D) setting).heed setting.CopiesNoObject).Contract
      (StaysIndependent setting) (fun state => Intact setting state.functions state)
      (fun _ => Ends setting) where
  operations := fun operation _ => satisfies_operation operation
  finish := fun operation _ _ ends => ends.finish operation

/-! ## Runs on fixed inputs -/

/-- Values from 10 on are objects, the even ones of the source. -/
def sampleSetting : Setting where
  jibs
    | .source => ⟨1, 1, 10, 2, 3, 4⟩
    | .clone => ⟨2, 2, 11, 2, 3, 4⟩
  groupOfContext context := if context = 1 then 1 else 2
  groupOf value := if value < 10 then none else some (if value % 2 = 0 then 1 else 2)
  makerOf address := if address % 2 = 0 then .source else .clone
  returns _ _ := False
  contexts side := by cases side <;> rfl
  distinct := by decide
  values side := by cases side <;> simp [JibFields.values, Owned]
  ownReturns := by simp

/-- How reading a property goes. -/
abbrev CloneReading := CloneState → JSObjectRef → JSStringRef → Option JSValueRef

/-- A store of objects and bodies; every object has one enumerable name. -/
def serve (reading : CloneReading) : Handler interface CloneState
  | .readReleased, state => (state.released state.side, state)
  | .appendCustomFunction function, state =>
      ((), { state with functions := added state.functions state.side function })
  | .clearCustomFunctions, state =>
      ((), { state with functions := Function.update state.functions state.side [] })
  | .setPrintFn function, state =>
      ((), { state with printFn := Function.update state.printFn state.side function })
  | .setReleased, state =>
      ((), { state with released := Function.update state.released state.side true })
  | .makeRetainedPtr _, state =>
      let address := 2 * state.nextBody + if state.side = .source then 0 else 1
      (some address, { state with
        nextBody := address + 1
        live := Function.update state.live address true })
  | .makeReleasedClass bodyPtr, state =>
      ((), { state with live := freed state.live bodyPtr })
  | .jsContextGroupCreate, state => (2, state)
  | .jsGlobalContextCreateInGroup _, state => (2, state)
  | .jsContextGetGlobalObject context, state => (if context = 1 then 10 else 11, state)
  | .jsValueMakeUndefined _, state => (2, state)
  | .jsValueMakeBoolean _ value, state => (if value then 3 else 4, state)
  | .jsObjectMake context _ data, state =>
      let made := 2 * state.nextObject + 10 + if context = 1 then 0 else 1
      (some made, { state with
        nextObject := made + 1
        privateOf := Function.update state.privateOf made data })
  | .jsObjectMakeFunctionWithCallback context _, state =>
      let made := 2 * state.nextObject + 10 + if context = 1 then 0 else 1
      (some made, { state with nextObject := made + 1 })
  | .jsObjectGetPrivate object, state => (state.privateOf object, state)
  | .jsObjectCopyPropertyNames _ _, state => (⟨0, [⟨0, [120]⟩]⟩, state)
  | .jsObjectGetProperty _ object name, state => (reading state object name, state)
  | .jsObjectSetProperty _ object (some name) (some value) _, state =>
      (none, { state with
        slots := fun other slot =>
          if other = object ∧ slot = .property name.text then some value
          else state.slots other slot })
  | command, state => (emptyAnswer command, state)

/-- A reading that gives what the property holds, or no object. -/
def CloneReading.Proper (reading : CloneReading) : Prop :=
  ∀ state object name, ∀ value ∈ reading state object name,
    sampleSetting.groupOf value = none ∨ sampleSetting.groupOf object ≠ none ∧
      state.slots object (.property name.text) = some value

theorem runs_of_no_objects {context : JSGlobalContextRef} {command : Command}
    {answers : List JSValueRef}
    (noObjects : ∀ value ∈ answers, sampleSetting.groupOf value = none) :
    sampleSetting.Runs context command state answers state where
  toOnlyHeap := .refl state
  rearranged := fun _ _ => .inl rfl
  answers := fun value isAnswer => .owned (by simp [Owned, noObjects value isAnswer])

theorem le_double (number more : Nat) : number ≤ 2 * number + more := by
  omega

theorem serve_follows {reading : CloneReading} (proper : reading.Proper) (command : Command)
    (state : CloneState) :
    sampleSetting.effect command state (serve reading command state).1
      (serve reading command state).2 := by
  cases command with
  | makeRetainedPtr body =>
      refine ⟨_, rfl, le_double _ _, ?_, rfl⟩
      cases state.side <;> simp [sampleSetting]
  | jsContextGetGlobalObject context =>
      refine ⟨?_, rfl⟩
      intro side isContext
      subst isContext
      cases side <;> rfl
  | jsValueMakeUndefined context =>
      refine ⟨?_, rfl⟩
      intro side _
      cases side <;> rfl
  | jsValueMakeBoolean context value =>
      refine ⟨?_, rfl⟩
      intro side _
      cases side <;> rfl
  | jsObjectMake context jsClass data =>
      refine ⟨_, rfl, (le_double _ 10).trans (Nat.le_add_right _ _), ?_, rfl⟩
      by_cases isSource : context = 1
      · simp [sampleSetting, isSource]
      · simp [sampleSetting, isSource]
        omega
  | jsObjectMakeFunctionWithCallback context name =>
      refine .inr ⟨_, rfl, (le_double _ 10).trans (Nat.le_add_right _ _), ?_, rfl⟩
      by_cases isSource : context = 1
      · simp [sampleSetting, isSource]
      · simp [sampleSetting, isSource]
        omega
  | jsObjectIsFunction context object => exact ⟨by simp [serve, emptyAnswer], rfl⟩
  | loadJib function => exact ⟨by simp [serve, emptyAnswer], rfl⟩
  | jsObjectGetProperty context object name =>
      refine ⟨.refl state, fun _ _ => .inl rfl, ?_⟩
      intro value isRead
      rcases proper state object name value (by simpa [serve] using isRead) with
        noObject | ⟨isObject, leads⟩
      · exact .owned (by simp [Owned, noObject])
      · exact .slot (.given (.inl (by simp))) isObject leads
  | jsObjectSetProperty context object name value attributes =>
      cases name with
      | none => exact runs_of_no_objects (by simp [serve, emptyAnswer])
      | some name =>
          cases value with
          | none => exact runs_of_no_objects (by simp [serve, emptyAnswer])
          | some value =>
              refine ⟨⟨⟨rfl, rfl, rfl, rfl, rfl⟩, rfl, rfl, le_refl _, rfl, rfl⟩, ?_,
                by simp [serve]⟩
              intro other slot
              by_cases assigned : other = object ∧ slot = .property name.text
              · refine .inr ⟨.given (.inl (by simp [assigned.1])), ?_⟩
                intro given isGiven
                have isValue : value = given := by simpa [serve, assigned] using isGiven
                exact .given (.inl (by simp [isValue]))
              · exact .inl (by simp [serve, assigned])
  | _ =>
      first
        | rfl
        | exact ⟨rfl, rfl⟩
        | exact runs_of_no_objects (by simp [serve, emptyAnswer, sampleSetting])

/-- `__jib_block` as a slot. -/
def blockSlot : Slot := .property jibCallbackProperyName.text

def sourceFunction : JibFunction := ⟨0, some 12, some 0⟩

/-- A source with one function, and a global `x` that holds a value. -/
def sourceWith (value : JSValueRef) : CloneState where
  slots object slot :=
    if object = 10 ∧ slot = .property [120] then some value
    else if object = 12 ∧ slot = blockSlot then some 14
    else none
  privateOf object := if object = 14 then some 0 else none
  live address := address == 0
  nextObject := 8
  nextBody := 1
  functions
    | .source => [sourceFunction]
    | .clone => []
  printFn _ := none
  released _ := false
  held := []
  phase := .unmade
  side := .source

theorem initial_sourceWith {value : JSValueRef}
    (own : Owned sampleSetting.groupOf 1 value) :
    sampleSetting.Initial (sourceWith value) where
  phase := rfl
  separated := by
    intro object slot given group leads isGroup
    simp only [sourceWith] at leads
    split at leads
    · rename_i isX
      obtain rfl := isX.1
      obtain rfl : value = given := by simpa using leads
      obtain rfl : 1 = group := by simpa [sampleSetting] using isGroup
      exact own
    · split at leads
      · rename_i isBlock
        obtain rfl := isBlock.1
        obtain rfl : 14 = given := by simpa using leads
        obtain rfl : 1 = group := by simpa [sampleSetting] using isGroup
        simp [Owned, sampleSetting]
      · cases leads
  functions := rfl
  printFn := rfl
  made := by
    simp [sourceWith, sourceFunction, sampleSetting]
  objects := by
    intro object owned
    have notBlock : object ≠ 14 := by
      rintro rfl
      exact absurd (owned 1 rfl) (by decide)
    simp [sourceWith, notBlock]

/-- What operations make of a source. -/
@[irreducible]
def afterwards (reading : CloneReading) (start : CloneState)
    (operations : List (CloneOperation Unit)) : CloneState :=
  operations.foldl
    (fun state operation => (cloneMachine sampleSetting).perform (serve reading) operation state)
    start

theorem afterwards_append (reading : CloneReading) (start : CloneState)
    (operations : List (CloneOperation Unit)) (operation : CloneOperation Unit) :
    afterwards reading start (operations ++ [operation]) =
      (cloneMachine sampleSetting).perform (serve reading) operation
        (afterwards reading start operations) := by
  simp only [afterwards, List.foldl_append, List.foldl_cons, List.foldl_nil]

/-- A clone is made and its source is released. -/
def cloningAndReleasing : List (CloneOperation Unit) :=
  [] ++ [.create 0] ++ [.release .source [sourceFunction] none]

/-- Reading what the property holds. -/
def readSlot : CloneReading := fun state object name =>
  if sampleSetting.groupOf object = none then none
  else state.slots object (.property name.text)

theorem proper_readSlot : readSlot.Proper := by
  intro state object name value isRead
  unfold readSlot at isRead
  split at isRead
  · cases isRead
  · rename_i isObject
    exact .inr ⟨isObject, isRead⟩

/-- Every property holds a number. -/
def readNumber : CloneReading := fun _ _ _ => some 8

theorem proper_readNumber : readNumber.Proper := by
  intro state object name value isRead
  obtain rfl : 8 = value := by simpa [readNumber] using isRead
  exact .inl rfl

theorem readNumber_copying (command : Command) (state : CloneState) :
    sampleSetting.copying command state (serve readNumber command state).1
      (serve readNumber command state).2 := by
  refine ⟨serve_follows proper_readNumber command state, ?_⟩
  cases command with
  | jsObjectGetProperty context object name =>
      intro _ _ copied isRead
      obtain rfl : 8 = copied := by simpa [serve, readNumber] using isRead
      rfl
  | _ => trivial

/-! ## Independent clones -/

/-- Whatever is done with a clone and its source, and in whatever order the two
are released, the clone is independent when its constructor reads no object
from its source. -/
theorem independent_of_copiesNoObject {start : CloneState}
    {config : Machine.Config interface (CloneOperation D) (Reply D) CloneState}
    (initial : setting.Initial start)
    (reaches : ((cloneMachine setting).heed setting.CopiesNoObject).Reaches start config) :
    setting.Independent config.state :=
  reaches.always setting.Independent contract_copying initial.intact
    (fun _ intact => intact.independent) (fun _ _ independent => independent)
    (fun _ _ _ ends => ends.1.independent)

theorem independent_of_copiesNoObject_number :
    sampleSetting.Independent (afterwards readNumber (sourceWith 8) cloningAndReleasing) := by
  have ownNumber : Owned sampleSetting.groupOf 1 8 := by simp [Owned, sampleSetting]
  have begun : ((cloneMachine (D := Unit) sampleSetting).heed
      sampleSetting.CopiesNoObject).Reaches (sourceWith 8)
      ⟨afterwards readNumber (sourceWith 8) [], none⟩ := by
    rw [afterwards]
    exact .refl
  have unmade : (afterwards readNumber (sourceWith 8) []).phase = .unmade := by decide +kernel
  have cloned := begun.perform readNumber_copying (.create 0) unmade
  have reaches := cloned.perform readNumber_copying (.release .source [sourceFunction] none)
    ⟨by simp, by decide +kernel, by decide +kernel⟩
  rw [cloningAndReleasing, afterwards_append, afterwards_append]
  exact independent_of_copiesNoObject (initial_sourceWith ownNumber) reaches

/-- The clone of a `Jib` with a global `x` that holds a function leads to that
function and, when the `Jib` is released, to a body that is freed. -/
theorem not_independent_function :
    sampleSetting.Initial (sourceWith 12) ∧
      (cloneMachine (D := Unit) sampleSetting).Reaches (sourceWith 12)
        ⟨afterwards readSlot (sourceWith 12) cloningAndReleasing, none⟩ ∧
      ¬sampleSetting.Independent (afterwards readSlot (sourceWith 12) cloningAndReleasing) := by
  have ownFunction : Owned sampleSetting.groupOf 1 12 := by simp [Owned, sampleSetting]
  refine ⟨initial_sourceWith ownFunction, ?_, ?_⟩
  · have begun : (cloneMachine (D := Unit) sampleSetting).Reaches (sourceWith 12)
        ⟨afterwards readSlot (sourceWith 12) [], none⟩ := by
      rw [afterwards]
      exact .refl
    have unmade : (afterwards readSlot (sourceWith 12) []).phase = .unmade := by decide +kernel
    have cloned := begun.perform (serve_follows proper_readSlot) (.create 0) unmade
    have reaches := cloned.perform (serve_follows proper_readSlot)
      (.release .source [sourceFunction] none) ⟨by simp, by decide +kernel, by decide +kernel⟩
    rw [cloningAndReleasing, afterwards_append, afterwards_append]
    exact reaches
  · intro independent
    have holdsFunction : (afterwards readSlot (sourceWith 12) cloningAndReleasing).slots 11
        (.property [120]) = some 12 := by decide +kernel
    have holdsBlock : (afterwards readSlot (sourceWith 12) cloningAndReleasing).slots 12
        blockSlot = some 14 := by decide +kernel
    have atFunction : Reachable sampleSetting.groupOf
        (afterwards readSlot (sourceWith 12) cloningAndReleasing).slots 11 12 :=
      .slot .root (by decide) holdsFunction
    have atBlock := atFunction.slot (by decide) holdsBlock
    have isLive := independent.retained (by decide +kernel) 14 atBlock 0 (by decide +kernel)
    exact absurd isLive (by decide +kernel)

end Jib.JSC.Clones
