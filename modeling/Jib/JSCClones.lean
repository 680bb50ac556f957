import Jib.GroupedHeaps
import Jib.JSCPublicOperations
import Mathlib.Logic.Function.Basic

/-!
# A clone and its source

A `Jib` that `init(clone:_:)` makes has a group of contexts of its own, and so
has its source.  What an engine call can do to the heap depends on the group it
runs in and on the values it is given; the bodies of functions are freed where
the last reference to their `JibFunction` goes away.  Bodies and objects are
told apart by identity: no object and no body is ever made at an old place.
-/

namespace Jib.JSC.Clones

open CommandProgram Program GroupedHeaps

inductive Side
  | source
  | clone
  deriving DecidableEq

/-- What an object refers to by: its properties, and what the engine keeps. -/
inductive Slot
  | property (name : Bytes)
  | internal (index : Nat)
  deriving DecidableEq

/-- How far the clone is.  It has ended when it is about to be released. -/
inductive ClonePhase
  | unmade
  | inUse
  | ended
  deriving DecidableEq

/-- The two `Jib`s, the group of each context and object, the side that makes
the body at each address, and the values that bodies return when they are
called in a group.  No body returns an object of the other group. -/
structure Setting where
  jibs : Side → JibFields
  groupOfContext : JSGlobalContextRef → JSContextGroupRef
  groupOf : JSValueRef → Option JSContextGroupRef
  makerOf : Address → Side
  returns : JSContextGroupRef → JSValueRef → Prop
  contexts : ∀ side, groupOfContext (jibs side).context = (jibs side).group
  distinct : (jibs .source).group ≠ (jibs .clone).group
  values : ∀ side, ∀ value ∈ (jibs side).values, Owned groupOf (jibs side).group value
  ownReturns : ∀ side value, returns (jibs side).group value →
    Owned groupOf (jibs side).group value

/-- The heap, the bodies and the functions of both.  `functions`, `printFn` and
`released` are fields of the `Jib`s, `held` are the functions that the program
holds.  Objects from `nextObject` and bodies from `nextBody` on are new; `side`
is the one whose operation is running. -/
structure CloneState where
  slots : JSObjectRef → Slot → Option JSValueRef
  privateOf : JSObjectRef → AnyPtr
  live : Address → Bool
  nextObject : JSObjectRef
  nextBody : Address
  functions : Side → List JibFunction
  printFn : Side → Option JibFunction
  released : Side → Bool
  held : List JibFunction
  phase : ClonePhase
  side : Side

/-- The functions of both sides after one has been added. -/
def added (functions : Side → List JibFunction) (side : Side) (function : JibFunction) :
    Side → List JibFunction :=
  Function.update functions side (functions side ++ [function])

theorem mem_added {functions : Side → List JibFunction} {side other : Side}
    {function present : JibFunction} :
    present ∈ added functions side function other ↔
      present ∈ functions other ∨ other = side ∧ present = function := by
  unfold added
  by_cases same : other = side
  · subst same
    simp
  · simp [same]

/-- Freeing the body at a pointer. -/
def freed (live : Address → Bool) : AnyPtr → Address → Bool
  | some address => Function.update live address false
  | none => live

namespace CloneState

/-- The functions of both sides are as they were, and so is what is going on. -/
structure Framed (before after : CloneState) : Prop where
  functions : after.functions = before.functions
  printFn : after.printFn = before.printFn
  held : after.held = before.held
  phase : after.phase = before.phase
  side : after.side = before.side

/-- Only the heap has changed, and there may be new objects. -/
structure OnlyHeap (before after : CloneState) : Prop extends Framed before after where
  privateOf : after.privateOf = before.privateOf
  live : after.live = before.live
  nextObject : before.nextObject ≤ after.nextObject
  nextBody : after.nextBody = before.nextBody
  released : after.released = before.released

variable {before middle after : CloneState}

theorem Framed.refl (state : CloneState) : Framed state state :=
  ⟨rfl, rfl, rfl, rfl, rfl⟩

theorem Framed.trans (first : Framed before middle) (second : Framed middle after) :
    Framed before after where
  functions := second.functions.trans first.functions
  printFn := second.printFn.trans first.printFn
  held := second.held.trans first.held
  phase := second.phase.trans first.phase
  side := second.side.trans first.side

theorem OnlyHeap.refl (state : CloneState) : OnlyHeap state state :=
  ⟨.refl state, rfl, rfl, le_refl _, rfl, rfl⟩

theorem OnlyHeap.trans (first : OnlyHeap before middle) (second : OnlyHeap middle after) :
    OnlyHeap before after where
  toFramed := first.toFramed.trans second.toFramed
  privateOf := second.privateOf.trans first.privateOf
  live := second.live.trans first.live
  nextObject := first.nextObject.trans second.nextObject
  nextBody := second.nextBody.trans first.nextBody
  released := second.released.trans first.released

/-- The function has a reference in some field. -/
def Stored (state : CloneState) (function : JibFunction) : Prop :=
  ∃ side, function ∈ state.functions side ∨ function ∈ state.printFn side

/-- The functions that only `customFunctions` of a side holds. -/
def dropped (state : CloneState) (side : Side) : List JibFunction :=
  (state.functions side).filter fun function =>
    function ∉ state.held ∧ function ∉ state.printFn side

/-- `printFn` of a side, where only the `Jib` holds it. -/
def droppedPrint (state : CloneState) (side : Side) : Option JibFunction :=
  (state.printFn side).filter fun function => function ∉ state.held

end CloneState

open CloneState

namespace Setting

variable (setting : Setting)

/-- The value belongs to the group of a side, or to none. -/
abbrev Owns (side : Side) (value : JSValueRef) : Prop :=
  Owned setting.groupOf (setting.jibs side).group value

/-- What an engine call has at hand: its arguments, and what the bodies that it
calls return. -/
def Given (group : JSContextGroupRef) (command : Command) (value : JSValueRef) : Prop :=
  value ∈ command.values ∨ setting.returns group value

/-- An engine call in a context, with whatever scripts it runs. -/
structure Runs (context : JSGlobalContextRef) (command : Command) (before : CloneState)
    (answers : List JSValueRef) (after : CloneState) : Prop extends OnlyHeap before after where
  rearranged : Rearranged setting.groupOf (setting.groupOfContext context)
    (setting.Given (setting.groupOfContext context) command) before.slots after.slots
  answers : ∀ value ∈ answers, Accessible setting.groupOf before.slots
    (setting.groupOfContext context)
    (setting.Given (setting.groupOfContext context) command) value

/-- The answers and effects of commands.  The clone's group and context are
made by its constructor; commands without a context leave everything alone. -/
def effect : Effect interface CloneState
  | .readReleased, before, released, after =>
      released = before.released before.side ∧ after = before
  | .appendCustomFunction function, before, _, after =>
      after = { before with functions := added before.functions before.side function }
  | .clearCustomFunctions, before, _, after =>
      after = { before with functions := Function.update before.functions before.side [] }
  | .setPrintFn function, before, _, after =>
      after = { before with printFn := Function.update before.printFn before.side function }
  | .setReleased, before, _, after =>
      after = { before with released := Function.update before.released before.side true }
  | .loadJib _, before, jib, after =>
      (∀ found ∈ jib, found = setting.jibs before.side) ∧ after = before
  | .makeRetainedPtr _, before, bodyPtr, after =>
      ∃ address, bodyPtr = some address ∧ before.nextBody ≤ address ∧
        setting.makerOf address = before.side ∧
          after = { before with
            nextBody := address + 1
            live := Function.update before.live address true }
  | .makeReleasedClass bodyPtr, before, _, after =>
      after = { before with live := freed before.live bodyPtr }
  | .jsContextGroupCreate, before, group, after =>
      group = (setting.jibs .clone).group ∧ after = before
  | .jsGlobalContextCreateInGroup _, before, context, after =>
      context = (setting.jibs .clone).context ∧ after = before
  | .jsContextGetGlobalObject context, before, global, after =>
      (∀ side, context = (setting.jibs side).context → global = (setting.jibs side).global) ∧
        after = before
  | .jsValueMakeUndefined context, before, undefined, after =>
      (∀ side, context = (setting.jibs side).context →
        undefined = (setting.jibs side).undefined) ∧ after = before
  | .jsValueMakeBoolean context value, before, boolean, after =>
      (∀ side, context = (setting.jibs side).context →
        boolean = if value then (setting.jibs side).trueValue
          else (setting.jibs side).falseValue) ∧ after = before
  | .jsObjectMake context _ data, before, object, after =>
      ∃ made, object = some made ∧ before.nextObject ≤ made ∧
        setting.groupOf made = some (setting.groupOfContext context) ∧
          after = { before with
            nextObject := made + 1
            privateOf := Function.update before.privateOf made data }
  | .jsObjectMakeFunctionWithCallback context _, before, function, after =>
      (function = none ∧ after = before) ∨
        ∃ made, function = some made ∧ before.nextObject ≤ made ∧
          setting.groupOf made = some (setting.groupOfContext context) ∧
            after = { before with nextObject := made + 1 }
  | .jsObjectIsFunction _ object, before, isFunction, after =>
      (isFunction = true → before.privateOf object = none) ∧ after = before
  | .jsObjectGetPrivate object, before, data, after =>
      data = before.privateOf object ∧ after = before
  | .jsValueProtect .., before, _, after => after = before
  | .jsValueUnprotect .., before, _, after => after = before
  | command, before, answer, after =>
      match command.context? with
      | some context =>
          setting.Runs context command before (answerValues command answer) after
      | none => after = before

end Setting

variable {D : Type}

/-- What the program does with a clone and its source.  Releasing a `Jib` and
deallocating it run the same program; `dropped` and `droppedPrint` are the
functions that only that `Jib` holds. -/
inductive CloneOperation (D : Type)
  | create (printBody : JibFunctionBody)
  | perform (side : Side) (operation : PublicOperation D)
  | release (side : Side) (dropped : List JibFunction) (droppedPrint : Option JibFunction)
  | drop (function : JibFunction)
  | deallocate (side : Side) (function : JibFunction)

namespace CloneOperation

def program (setting : Setting) : CloneOperation D → Operation (Reply D)
  | .create printBody => do
      let _ ← initJib (some (setting.jibs .source)) printBody
      return .nothing
  | .perform side operation => operation.program (setting.jibs side)
  | .release side dropped droppedPrint => do
      JSC.release (setting.jibs side) dropped droppedPrint
      return .nothing
  | .drop _ => return .nothing
  | .deallocate _ function => do
      function.deinit
      return .nothing

/-- One clone is made, and an operation is given no object of the other group.
A function that is dropped has another reference, and one that is deallocated
has none. -/
def Enabled (setting : Setting) : CloneOperation D → CloneState → Prop
  | .create _, state => state.phase = .unmade
  | .perform side operation, state =>
      (side = .clone → state.phase ≠ .unmade) ∧
        ∀ value ∈ operation.values, setting.Owns side value
  | .release side dropped droppedPrint, state =>
      (side = .clone → state.phase ≠ .unmade) ∧
        dropped = state.dropped side ∧ droppedPrint = state.droppedPrint side
  | .drop function, state =>
      function ∈ state.held ∧ (state.Stored function ∨ function ∈ state.held.erase function)
  | .deallocate _ function, state =>
      function ∈ state.held ∧ ¬state.Stored function ∧ function ∉ state.held.erase function

def enter : CloneOperation D → CloneState → CloneState
  | .create _, state => { state with side := .clone, phase := .inUse }
  | .perform side _, state => { state with side := side }
  | .release .source _ _, state => { state with side := .source }
  | .release .clone _ _, state => { state with side := .clone, phase := .ended }
  | .drop _, state => state
  | .deallocate side _, state => { state with side := side }

def finish : CloneOperation D → Reply D → CloneState → CloneState
  | .drop function, _, state => { state with held := state.held.erase function }
  | .deallocate _ function, _, state => { state with held := state.held.erase function }
  | _, reply, state => { state with held := reply.functions ++ state.held }

end CloneOperation

/-- The runs of a clone and its source. -/
def cloneMachine (setting : Setting) :
    Machine interface (CloneOperation D) (Reply D) CloneState where
  program := CloneOperation.program setting
  effect := setting.effect
  Enabled := CloneOperation.Enabled setting
  enter := CloneOperation.enter
  finish := CloneOperation.finish

namespace Setting

/-- The clone does not depend on its source: what its global object leads to is
in its own group, and the bodies found there are retained. -/
structure Independent (setting : Setting) (state : CloneState) : Prop where
  owned : state.phase = .inUse → ∀ value,
    Reachable setting.groupOf state.slots (setting.jibs .clone).global value →
      setting.Owns .clone value
  retained : state.phase = .inUse → ∀ value,
    Reachable setting.groupOf state.slots (setting.jibs .clone).global value →
      ∀ address ∈ state.privateOf value, state.live address = true

/-- No value that the constructor reads from its source is an object. -/
def CopiesNoObject (setting : Setting) : (command : Command) → CloneState →
    Answer command → Prop
  | .jsObjectGetProperty context _ _, state, value =>
      state.side = .clone → context = (setting.jibs .source).context →
        ∀ copied ∈ value, setting.groupOf copied = none
  | _, _, _ => True

/-- The source as it is before the clone is made: no object leads to another
group, and all bodies are its own. -/
structure Initial (setting : Setting) (state : CloneState) : Prop where
  phase : state.phase = .unmade
  separated : Separated setting.groupOf state.slots
  functions : state.functions .clone = []
  printFn : state.printFn .clone = none
  made : ∀ function, function ∈ state.functions .source ∨ function ∈ state.printFn .source ∨
    function ∈ state.held → ∀ address ∈ function.bodyPtr, setting.makerOf address = .source
  objects : ∀ object, setting.Owns .clone object → state.privateOf object = none

end Setting

/-! ## What holds between operations -/

/-- Every function has the bodies of its own side, and all private data of the
clone's objects are bodies of `functions`, which are live. -/
structure Intact (setting : Setting) (functions : Side → List JibFunction)
    (state : CloneState) : Prop where
  separated : Separated setting.groupOf state.slots
  made : ∀ side, ∀ function ∈ functions side, ∀ address ∈ function.bodyPtr,
    setting.makerOf address = side
  printed : ∀ side, ∀ function ∈ state.printFn side, ∀ address ∈ function.bodyPtr,
    setting.makerOf address = side
  held : state.phase ≠ .ended → ∀ function ∈ state.held, ∀ address ∈ function.bodyPtr,
    setting.makerOf address = .clone → function ∈ functions .clone
  retained : state.phase ≠ .ended → ∀ object, setting.Owns .clone object →
    ∀ address ∈ state.privateOf object,
      ∃ function ∈ functions .clone, function.bodyPtr = some address
  live : state.phase ≠ .ended → ∀ function ∈ functions .clone,
    ∀ address ∈ function.bodyPtr, state.live address = true ∧ address < state.nextBody

variable {setting : Setting} {functions : Side → List JibFunction}
  {before state after : CloneState} {side : Side}

theorem Intact.independent (intact : Intact setting functions state) :
    setting.Independent state := by
  have ownGlobal : setting.Owns .clone (setting.jibs .clone).global :=
    setting.values .clone _ (by simp [JibFields.values])
  refine ⟨fun _ value reachable => intact.separated.reachable ownGlobal reachable, ?_⟩
  intro inUse value reachable address isData
  have notEnded : state.phase ≠ .ended := by simp [inUse]
  have owned := intact.separated.reachable ownGlobal reachable
  obtain ⟨function, isFunction, isBody⟩ := intact.retained notEnded value owned address isData
  exact (intact.live notEnded function isFunction address isBody).1

theorem Setting.Initial.intact (initial : setting.Initial state) :
    Intact setting state.functions state where
  separated := initial.separated
  made := by
    intro side function isFunction
    cases side with
    | source => exact initial.made function (.inl isFunction)
    | clone =>
        rw [initial.functions] at isFunction
        cases isFunction
  printed := by
    intro side function isFunction
    cases side with
    | source => exact initial.made function (.inr (.inl isFunction))
    | clone =>
        rw [initial.printFn] at isFunction
        cases isFunction
  held := by
    intro _ function isHeld address isBody isClone
    have isSource := initial.made function (.inr (.inr isHeld)) address isBody
    rw [isSource] at isClone
    cases isClone
  retained := by
    intro _ object owned address isData
    rw [initial.objects object owned] at isData
    cases isData
  live := by
    intro _ function isFunction
    rw [initial.functions] at isFunction
    cases isFunction

theorem Intact.onlyHeap (intact : Intact setting functions before)
    (onlyHeap : OnlyHeap before after) (separated : Separated setting.groupOf after.slots) :
    Intact setting functions after where
  separated := separated
  made := intact.made
  printed := by
    rw [onlyHeap.printFn]
    exact intact.printed
  held := by
    rw [onlyHeap.phase, onlyHeap.held]
    exact intact.held
  retained := by
    rw [onlyHeap.phase, onlyHeap.privateOf]
    exact intact.retained
  live := by
    rw [onlyHeap.phase, onlyHeap.live, onlyHeap.nextBody]
    exact intact.live

/-- No function of the clone has the body. -/
def Spare (functions : Side → List JibFunction) (state : CloneState) (bodyPtr : AnyPtr) : Prop :=
  state.phase ≠ .ended → ∀ address ∈ bodyPtr, ∀ function ∈ functions .clone,
    function.bodyPtr ≠ some address

/-- The bodies of the source are none of the clone's. -/
theorem Intact.spare (intact : Intact setting functions state) {bodyPtr : AnyPtr}
    (notClone : state.phase ≠ .ended → ∀ address ∈ bodyPtr, setting.makerOf address ≠ .clone) :
    Spare functions state bodyPtr := by
  intro notEnded address isBody function isFunction sameBody
  exact notClone notEnded address isBody (intact.made .clone function isFunction address sameBody)

theorem Intact.free (intact : Intact setting functions state) {bodyPtr : AnyPtr}
    (spare : Spare functions state bodyPtr) :
    Intact setting functions { state with live := freed state.live bodyPtr } where
  separated := intact.separated
  made := intact.made
  printed := intact.printed
  held := intact.held
  retained := intact.retained
  live := by
    intro notEnded function isFunction address isBody
    obtain ⟨isLive, known⟩ := intact.live notEnded function isFunction address isBody
    refine ⟨?_, known⟩
    cases bodyPtr with
    | none => exact isLive
    | some other =>
        have notOther : address ≠ other := by
          rintro rfl
          exact spare notEnded address rfl function isFunction isBody
        exact (Function.update_of_ne notOther _ _).trans isLive

/-! ## Commands of one side -/

/-- What an engine call may do when it is given values of its own group. -/
theorem Setting.Runs.owned {command : Command} {answers : List JSValueRef}
    (runs : setting.Runs (setting.jibs side).context command before answers after)
    (separated : Separated setting.groupOf before.slots)
    (own : ∀ value ∈ command.values, setting.Owns side value) :
    OnlyHeap before after ∧ Separated setting.groupOf after.slots ∧
      ∀ value ∈ answers, setting.Owns side value := by
  have rearranged := runs.rearranged
  have accessible := runs.answers
  rw [setting.contexts side] at rearranged accessible
  have givenOwned : ∀ value, setting.Given (setting.jibs side).group command value →
      setting.Owns side value := by
    rintro value (isArgument | isReturned)
    · exact own value isArgument
    · exact setting.ownReturns side value isReturned
  refine ⟨runs.toOnlyHeap, separated.rearranged givenOwned rearranged, ?_⟩
  intro value isAnswer
  exact separated.accessible givenOwned (accessible value isAnswer)

/-- What an effect that changes nothing leaves. -/
theorem unchanged {command : Command} {answer : Answer command}
    (separated : Separated setting.groupOf before.slots) (same : after = before)
    (owned : ∀ value ∈ answerValues command answer, setting.Owns side value)
    (classifies : Classifies (fun object => before.privateOf object = none) command answer) :
    OnlyHeap before after ∧ Separated setting.groupOf after.slots ∧
      (∀ value ∈ answerValues command answer, setting.Owns side value) ∧
        Classifies (fun object => before.privateOf object = none) command answer := by
  subst same
  exact ⟨.refl after, separated, owned, classifies⟩

theorem onlyHeap_of_plain {command : Command} {answer : Answer command}
    (plain : command.isPlain = true)
    (inContext : ∀ given ∈ command.context?, given = (setting.jibs side).context)
    (own : ∀ value ∈ command.values, setting.Owns side value)
    (separated : Separated setting.groupOf before.slots)
    (moves : setting.effect command before answer after) :
    OnlyHeap before after ∧ Separated setting.groupOf after.slots ∧
      (∀ value ∈ answerValues command answer, setting.Owns side value) ∧
        Classifies (fun object => before.privateOf object = none) command answer := by
  have ownJib := setting.values side
  cases command with
  | readReleased => exact unchanged separated moves.2 (by simp) trivial
  | loadJib function => exact unchanged separated moves.2 (by simp) trivial
  | jsContextGetGlobalObject context =>
      obtain ⟨isGlobal, same⟩ := moves
      have isOwn := isGlobal side (inContext context rfl)
      refine unchanged separated same ?_ trivial
      simpa [isOwn] using ownJib _ (by simp [JibFields.values])
  | jsValueMakeUndefined context =>
      obtain ⟨isUndefined, same⟩ := moves
      have isOwn := isUndefined side (inContext context rfl)
      refine unchanged separated same ?_ trivial
      simpa [isOwn] using ownJib _ (by simp [JibFields.values])
  | jsValueMakeBoolean context value =>
      obtain ⟨isBoolean, same⟩ := moves
      have isOwn := isBoolean side (inContext context rfl)
      refine unchanged separated same ?_ trivial
      cases value <;> simpa [isOwn] using ownJib _ (by simp [JibFields.values])
  | jsObjectIsFunction context object =>
      exact unchanged separated moves.2 (by simp) moves.1
  | jsObjectGetPrivate object =>
      apply unchanged separated moves.2 (by simp)
      intro noData
      exact moves.1.trans noData
  | jsValueProtect context value => exact unchanged separated moves (by simp) trivial
  | jsValueUnprotect context value => exact unchanged separated moves (by simp) trivial
  | _ =>
      first
        | exact Bool.noConfusion plain
        | exact unchanged separated moves (by simp) trivial
        | obtain rfl := inContext _ rfl
          obtain ⟨onlyHeap, separatedAfter, owned⟩ := Setting.Runs.owned moves separated own
          exact ⟨onlyHeap, separatedAfter, owned, trivial⟩

/-- What every command finds. -/
abbrev StaysIndependent (setting : Setting) (_ : Command) (state : CloneState) : Prop :=
  setting.Independent state

/-- Operations of one side that pass on their own values change the heap at
most. -/
theorem satisfies_of_passes {α : Type} {post : α → Prop} {program : Operation α}
    (intact : Intact setting functions state)
    (passes : Passes (setting.jibs side).context (setting.Owns side)
      (fun object => state.privateOf object = none) post program) :
    program.Satisfies setting.effect (StaysIndependent setting)
      (fun value after => post value ∧ Intact setting functions after ∧
        OnlyHeap state after) state := by
  refine (Satisfies.simulate
    (fun _ now => Intact setting functions now ∧ OnlyHeap state now) passes ?_
    ⟨intact, OnlyHeap.refl state⟩).mono ?_
  · rintro command _ now ⟨intactNow, soFar⟩ ⟨plain, inContext, own⟩
    refine ⟨intactNow.independent, ?_⟩
    intro answer after moves
    obtain ⟨onlyHeap, separated, owned, classifies⟩ :=
      onlyHeap_of_plain plain inContext own intactNow.separated moves
    rw [soFar.privateOf] at classifies
    exact ⟨(), ⟨owned, classifies⟩, intactNow.onlyHeap onlyHeap separated,
      soFar.trans onlyHeap⟩
  · rintro value after ⟨_, holds, intactAfter, onlyHeap⟩
    exact ⟨holds, intactAfter, onlyHeap⟩

/-! ## Giving functions up -/

theorem satisfies_deinit {function : JibFunction} (intact : Intact setting functions state)
    (spare : Spare functions state function.bodyPtr) :
    function.deinit.Satisfies setting.effect (StaysIndependent setting)
      (fun _ after => Intact setting functions after ∧ Framed state after) state := by
  have freedIntact := intact.free spare
  have framed : Framed state { state with live := freed state.live function.bodyPtr } :=
    ⟨rfl, rfl, rfl, rfl, rfl⟩
  refine ⟨intact.independent, ?_⟩
  rintro _ _ rfl
  refine ⟨freedIntact.independent, ?_⟩
  rintro _ _ rfl
  refine ⟨freedIntact.independent, ?_⟩
  rintro found _ ⟨_, rfl⟩
  cases found with
  | none => exact ⟨freedIntact, framed⟩
  | some jib =>
      refine ⟨freedIntact.independent, ?_⟩
      rintro released _ ⟨_, rfl⟩
      cases released with
      | true => exact ⟨freedIntact, framed⟩
      | false =>
          refine ⟨freedIntact.independent, ?_⟩
          rintro _ _ rfl
          exact ⟨freedIntact, framed⟩

theorem satisfies_deinits {given : List JibFunction} (intact : Intact setting functions state)
    (spare : ∀ function ∈ given, Spare functions state function.bodyPtr) :
    (forEach JibFunction.deinit given).Satisfies setting.effect (StaysIndependent setting)
      (fun _ after => Intact setting functions after ∧ Framed state after) state := by
  induction given generalizing state with
  | nil => exact ⟨intact, .refl state⟩
  | cons function rest ih =>
      have first := satisfies_deinit intact (spare function (by simp))
      refine Satisfies.bind (first.mono ?_)
      rintro _ middle ⟨intactMiddle, framed⟩
      have spareRest : ∀ other ∈ rest, Spare functions middle other.bodyPtr := by
        intro other isRest
        rw [Spare, framed.phase]
        exact spare other (by simp [isRest])
      apply (ih intactMiddle spareRest).mono
      rintro _ after ⟨intactAfter, framedAfter⟩
      exact ⟨intactAfter, framed.trans framedAfter⟩

theorem Intact.clear (intact : Intact setting functions state)
    (notClone : state.phase ≠ .ended → side ≠ .clone) :
    Intact setting (Function.update functions side [])
      { state with functions := Function.update state.functions side [] } where
  separated := intact.separated
  made := by
    intro other function isFunction
    by_cases same : other = side
    · subst same
      simp at isFunction
    · rw [Function.update_of_ne same] at isFunction
      exact intact.made other function isFunction
  printed := intact.printed
  held := by
    intro notEnded
    rw [Function.update_of_ne (notClone notEnded).symm]
    exact intact.held notEnded
  retained := by
    intro notEnded
    rw [Function.update_of_ne (notClone notEnded).symm]
    exact intact.retained notEnded
  live := by
    intro notEnded
    rw [Function.update_of_ne (notClone notEnded).symm]
    exact intact.live notEnded

theorem Intact.setPrint (intact : Intact setting functions state)
    {printFn : Option JibFunction}
    (made : ∀ function ∈ printFn, ∀ address ∈ function.bodyPtr, setting.makerOf address = side) :
    Intact setting functions
      { state with printFn := Function.update state.printFn side printFn } where
  separated := intact.separated
  made := intact.made
  printed := by
    intro other function isPrint
    by_cases same : other = side
    · subst same
      exact made function (by simpa using isPrint)
    · simp only [Function.update_of_ne same] at isPrint
      exact intact.printed other function isPrint
  held := intact.held
  retained := intact.retained
  live := intact.live

theorem satisfies_releaseContext (intact : Intact setting functions state) :
    (releaseContext (setting.jibs side)).Satisfies setting.effect (StaysIndependent setting)
      (fun _ after => Intact setting functions after ∧ Framed state after) state := by
  refine ⟨intact.independent, ?_⟩
  rintro released _ ⟨_, rfl⟩
  cases released with
  | true => exact ⟨intact, .refl _⟩
  | false =>
      refine ⟨intact.independent, ?_⟩
      intro _ collected runs
      obtain ⟨onlyHeap, separated, _⟩ := Setting.Runs.owned runs intact.separated (by simp)
      have intact := intact.onlyHeap onlyHeap separated
      refine ⟨intact.independent, ?_⟩
      rintro _ _ rfl
      refine ⟨intact.independent, ?_⟩
      rintro _ _ rfl
      exact ⟨⟨intact.separated, intact.made, intact.printed, intact.held, intact.retained,
        intact.live⟩, onlyHeap.functions, onlyHeap.printFn, onlyHeap.held, onlyHeap.phase,
        onlyHeap.side⟩

/-- Releasing a side frees only bodies of that side. -/
theorem satisfies_releaseBody {dropped : List JibFunction} {droppedPrint : Option JibFunction}
    (intact : Intact setting state.functions state) (isSide : state.side = side)
    (notClone : state.phase ≠ .ended → side ≠ .clone)
    (isFunction : ∀ function ∈ dropped, function ∈ state.functions side)
    (isPrint : ∀ function ∈ droppedPrint, function ∈ state.printFn side) :
    (releaseBody (setting.jibs side) dropped droppedPrint).Satisfies setting.effect
      (StaysIndependent setting) (fun _ after => Intact setting after.functions after) state := by
  subst isSide
  refine ⟨intact.independent, ?_⟩
  rintro _ _ rfl
  have cleared := intact.clear notClone
  have spare : ∀ function : JibFunction,
      (∀ address ∈ function.bodyPtr, setting.makerOf address = state.side) →
        Spare (Function.update state.functions state.side [])
          { state with functions := Function.update state.functions state.side [] }
            function.bodyPtr := by
    intro function made
    apply cleared.spare
    intro notEnded address isBody
    rw [made address isBody]
    exact notClone notEnded
  have spareDropped := fun function member =>
    spare function (intact.made state.side function (isFunction function member))
  change Satisfies _ _ _ (forEach JibFunction.deinit dropped >>= _) _
  refine Satisfies.bind ((satisfies_deinits cleared spareDropped).mono ?_)
  rintro _ middle ⟨intactMiddle, framed⟩
  refine ⟨intactMiddle.independent, ?_⟩
  rintro _ _ rfl
  have noPrint : ∀ function ∈ (none : Option JibFunction), ∀ address ∈ function.bodyPtr,
      setting.makerOf address = middle.side := by simp
  have intactPrint := intactMiddle.setPrint noPrint
  have sparePrint : ∀ function ∈ droppedPrint.toList,
      Spare (Function.update state.functions state.side [])
        { middle with printFn := Function.update middle.printFn middle.side none }
          function.bodyPtr := by
    intro function member
    have made := intact.printed state.side function (isPrint function (by simpa using member))
    have spareNow := spare function made
    rw [Spare] at spareNow ⊢
    rw [framed.phase]
    exact spareNow
  change Satisfies _ _ _ (forEach JibFunction.deinit droppedPrint.toList >>= _) _
  refine Satisfies.bind ((satisfies_deinits intactPrint sparePrint).mono ?_)
  rintro _ last ⟨intactLast, framedLast⟩
  apply (satisfies_releaseContext intactLast).mono
  rintro _ after ⟨intactAfter, framedAfter⟩
  have sameFunctions : after.functions = Function.update state.functions state.side [] :=
    (framedAfter.functions.trans framedLast.functions).trans framed.functions
  rwa [sameFunctions]

/-! ## Making functions -/

/-- A live body of a side that no function of the clone has. -/
structure FreshBody (setting : Setting) (functions : Side → List JibFunction) (side : Side)
    (address : Address) (state : CloneState) : Prop where
  intact : Intact setting functions state
  live : state.live address = true
  maker : setting.makerOf address = side
  known : address < state.nextBody
  unused : ∀ function ∈ functions .clone, state.phase ≠ .ended →
    function.bodyPtr ≠ some address

variable {address : Address}

theorem Intact.retain (intact : Intact setting functions state)
    (fresh : state.nextBody ≤ address) (maker : setting.makerOf address = side) :
    FreshBody setting functions side address
      { state with
        nextBody := address + 1
        live := Function.update state.live address true } where
  intact :=
    { separated := intact.separated
      made := intact.made
      printed := intact.printed
      held := intact.held
      retained := intact.retained
      live := by
        intro notEnded function isFunction other isBody
        obtain ⟨isLive, known⟩ := intact.live notEnded function isFunction other isBody
        have notFresh : other ≠ address := (known.trans_le fresh).ne
        exact ⟨(Function.update_of_ne notFresh _ _).trans isLive,
          (known.trans_le fresh).trans (Nat.lt_succ_self address)⟩ }
  live := Function.update_self _ _ _
  maker := maker
  known := Nat.lt_succ_self address
  unused := by
    intro function isFunction notEnded isBody
    have known := (intact.live notEnded function isFunction address isBody).2
    exact absurd known (not_lt.mpr fresh)

theorem FreshBody.onlyHeap (fresh : FreshBody setting functions side address before)
    (onlyHeap : OnlyHeap before after) (separated : Separated setting.groupOf after.slots) :
    FreshBody setting functions side address after where
  intact := fresh.intact.onlyHeap onlyHeap separated
  live := by rw [onlyHeap.live, fresh.live]
  maker := fresh.maker
  known := by
    rw [onlyHeap.nextBody]
    exact fresh.known
  unused := by
    rw [onlyHeap.phase]
    exact fresh.unused

theorem FreshBody.spare (fresh : FreshBody setting functions side address state) :
    Spare functions state (some address) := by
  intro notEnded other isBody function isFunction
  obtain rfl : address = other := by simpa using isBody
  exact fresh.unused function isFunction notEnded

theorem Setting.owns_of_groupOf {object : JSObjectRef}
    (inGroup : setting.groupOf object = some (setting.jibs side).group) :
    setting.Owns side object := by
  intro group isGroup
  rw [inGroup] at isGroup
  simpa using isGroup.symm

theorem Setting.eq_clone_of_owns {object : JSObjectRef}
    (inGroup : setting.groupOf object = some (setting.jibs side).group)
    (owned : setting.Owns .clone object) : side = .clone := by
  cases side with
  | source => exact (setting.distinct (owned _ inGroup)).elim
  | clone => rfl

/-- The object that leads to a fresh body belongs to its function. -/
theorem FreshBody.link (fresh : FreshBody setting functions side address state)
    {object : JSObjectRef} (inGroup : setting.groupOf object = some (setting.jibs side).group)
    {function : JibFunction} (isBody : function.bodyPtr = some address) :
    Intact setting (added functions side function)
      { state with
        nextObject := object + 1
        privateOf := Function.update state.privateOf object (some address) } where
  separated := fresh.intact.separated
  made := by
    intro other present isPresent given isGiven
    rcases mem_added.mp isPresent with wasPresent | ⟨rfl, rfl⟩
    · exact fresh.intact.made other present wasPresent given isGiven
    · rw [isBody] at isGiven
      obtain rfl : address = given := by simpa using isGiven
      exact fresh.maker
  printed := fresh.intact.printed
  held := by
    intro notEnded present isHeld given isGiven isClone
    exact mem_added.mpr (.inl (fresh.intact.held notEnded present isHeld given isGiven isClone))
  retained := by
    intro notEnded other owned given isData
    by_cases same : other = object
    · subst same
      obtain rfl := Setting.eq_clone_of_owns inGroup owned
      have sameBody : address = given := by simpa using isData
      exact ⟨function, mem_added.mpr (.inr ⟨rfl, rfl⟩), by rw [isBody, sameBody]⟩
    · have wasData : given ∈ state.privateOf other := by
        simpa [Function.update_of_ne same] using isData
      obtain ⟨present, isPresent, hasBody⟩ :=
        fresh.intact.retained notEnded other owned given wasData
      exact ⟨present, mem_added.mpr (.inl isPresent), hasBody⟩
  live := by
    intro notEnded present isPresent given isGiven
    rcases mem_added.mp isPresent with wasPresent | ⟨_, rfl⟩
    · exact fresh.intact.live notEnded present wasPresent given isGiven
    · rw [isBody] at isGiven
      obtain rfl : address = given := by simpa using isGiven
      exact ⟨fresh.live, fresh.known⟩

theorem FreshBody.satisfies_createJSString (name : HalfHitch)
    (fresh : FreshBody setting functions side address state) :
    (createJSString name).Satisfies setting.effect (StaysIndependent setting)
      (fun _ after => FreshBody setting functions side address after ∧ Framed state after)
      state := by
  have passes : Passes (setting.jibs side).context (setting.Owns side)
      (fun object => state.privateOf object = none) (fun _ => True) (createJSString name) :=
    passes_createJSString name
  apply (satisfies_of_passes fresh.intact passes).mono
  rintro _ after ⟨_, intact, onlyHeap⟩
  exact ⟨fresh.onlyHeap onlyHeap intact.separated, onlyHeap.toFramed⟩

/-- The function that could not be made frees its body. -/
theorem FreshBody.satisfies_deinit {jsClass : JSClassRef}
    (fresh : FreshBody setting functions side address state) :
    (JibFunction.deinit ⟨jsClass, none, some address⟩).Satisfies setting.effect
      (StaysIndependent setting)
      (fun _ after => Intact setting functions after ∧ Framed state after) state :=
  Clones.satisfies_deinit fresh.intact fresh.spare

theorem satisfies_makeJibFunction (name : HalfHitch) (body : JibFunctionBody)
    (intact : Intact setting functions state) (isSide : state.side = side) :
    (makeJibFunction (setting.jibs side) name body).Satisfies setting.effect
      (StaysIndependent setting)
      (fun made after => (match made with
        | some function =>
            Intact setting (added functions side function) after ∧
              OwnOption (setting.Owns side) function.objectRef
        | none => Intact setting functions after) ∧ Framed state after) state := by
  refine ⟨intact.independent, ?_⟩
  rintro jsClass state rfl
  refine ⟨intact.independent, ?_⟩
  rintro _ _ ⟨address, rfl, isNew, maker, rfl⟩
  have fresh := intact.retain isNew (maker.trans isSide)
  change Satisfies _ _ _ (createJSString name >>= _) _
  refine Satisfies.bind ((fresh.satisfies_createJSString name).mono ?_)
  rintro functionName named ⟨fresh, namedFramed⟩
  have framed : Framed state named := ⟨namedFramed.functions, namedFramed.printFn,
    namedFramed.held, namedFramed.phase, namedFramed.side⟩
  refine ⟨fresh.intact.independent, ?_⟩
  rintro objectRef functionMade (⟨rfl, rfl⟩ | ⟨object, rfl, isFresh, inGroup, rfl⟩)
  · refine ⟨fresh.intact.independent, ?_⟩
    rintro _ _ rfl
    change Satisfies _ _ _ (JibFunction.deinit _ >>= _) _
    refine Satisfies.bind (fresh.satisfies_deinit.mono ?_)
    rintro _ after ⟨intactAfter, framedAfter⟩
    exact ⟨intactAfter, framed.trans framedAfter⟩
  · have known : OnlyHeap named { named with nextObject := object + 1 } :=
      ⟨⟨rfl, rfl, rfl, rfl, rfl⟩, rfl, rfl, isFresh.trans (Nat.le_succ object), rfl, rfl⟩
    have fresh := fresh.onlyHeap known fresh.intact.separated
    refine ⟨fresh.intact.independent, ?_⟩
    rintro _ _ ⟨blockObject, rfl, _, blockInGroup, rfl⟩
    rw [setting.contexts side] at inGroup blockInGroup
    have ownObject := Setting.owns_of_groupOf inGroup
    have ownBlock := Setting.owns_of_groupOf blockInGroup
    have hasBody : (⟨jsClass, some object, some address⟩ : JibFunction).bodyPtr = some address :=
      rfl
    have linked := fresh.link blockInGroup hasBody
    refine ⟨linked.independent, ?_⟩
    intro exception assigned moves
    obtain ⟨onlyHeap, separated, _⟩ := Setting.Runs.owned moves linked.separated
      (by simp [ownObject, ownBlock])
    have linked := linked.onlyHeap onlyHeap separated
    refine ⟨linked.independent, ?_⟩
    rintro _ _ rfl
    refine ⟨linked.independent, ?_⟩
    rintro _ _ rfl
    refine ⟨⟨linked, by simpa [OwnOption] using ownObject⟩, framed.trans ?_⟩
    exact ⟨onlyHeap.functions, onlyHeap.printFn, onlyHeap.held, onlyHeap.phase, onlyHeap.side⟩

theorem satisfies_newFunction (name : HalfHitch) (body : JibFunctionBody)
    (intact : Intact setting state.functions state) (isSide : state.side = side) :
    (newFunction (setting.jibs side) name body).Satisfies setting.effect
      (StaysIndependent setting)
      (fun made after => Intact setting after.functions after ∧ after.side = side ∧
        ∀ function ∈ made, function ∈ after.functions side ∧
          OwnOption (setting.Owns side) function.objectRef) state := by
  refine ⟨intact.independent, ?_⟩
  rintro released _ ⟨_, rfl⟩
  cases released with
  | true => exact ⟨intact, isSide, by simp⟩
  | false =>
      change Satisfies _ _ _ (locked (makeJibFunction (setting.jibs side) name body >>= _)) _
      refine Satisfies.locked (Satisfies.bind
        ((satisfies_makeJibFunction name body intact isSide).mono ?_))
      rintro made after ⟨holds, framed⟩
      cases made with
      | none =>
          rw [← framed.functions] at holds
          exact ⟨holds, framed.side.trans isSide, by simp⟩
      | some function =>
          obtain ⟨linked, owned⟩ := holds
          have afterSide : after.side = side := framed.side.trans isSide
          refine ⟨linked.independent, ?_⟩
          rintro _ _ rfl
          refine ⟨?_, afterSide, ?_⟩
          · rw [← framed.functions] at linked
            rw [afterSide]
            exact ⟨linked.separated, linked.made, linked.printed, linked.held,
              linked.retained, linked.live⟩
          · intro given isGiven
            obtain rfl : function = given := by simpa using isGiven
            exact ⟨mem_added.mpr (.inr ⟨afterSide.symm, rfl⟩), owned⟩

end Jib.JSC.Clones
