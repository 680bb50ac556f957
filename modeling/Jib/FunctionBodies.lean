import Jib.JSCBodies
import Jib.QuickJSBodies

/-!
# Functions and their bodies

In both backends a function that was made and is called from JS should run its
own body.  QuickJS keeps to that in every run; with JavaScriptCore it depends on
what reading `__jib_block` gives at the time of the call.
-/

open CommandProgram

namespace Jib

/-! ## Calls -/

/-- In some run, a script that an engine call runs calls the function that was
made. -/
def QuickJS.Called (D : Type) (global : QuickJS.JSValue) (creation : QuickJS.Creation)
    (during : QuickJS.BodyState) : Prop :=
  ∃ config operation command, ∃ next : QuickJS.Answer command → _,
    (QuickJS.bodyMachine (D := D) global).Reaches .initial config ∧
      config.running = some (operation, .call command next) ∧
      config.state.Scripted during ∧ creation ∈ config.state.created

/-- In some run, a script that an engine call runs calls the function that was
made. -/
def JSC.Called (D : Type) (jib : JSC.JibFields) (creation : JSC.Creation)
    (during : JSC.BodyState) : Prop :=
  ∃ config operation command, ∃ next : JSC.Answer command → _,
    (JSC.bodyMachine (D := D) jib).Reaches .initial config ∧
      config.running = some (operation, .call command next) ∧
      config.state.Scripted during ∧ creation ∈ config.state.created

/-! ## A function in each backend -/

/-- `f`. -/
def bodyName : HalfHitch := .ofBytes [102]

namespace QuickJS

/-- A function has been made. -/
def madeState : BodyState where
  live := Function.update (fun _ => none) 0 (some 1)
  magicOf := Function.update (fun _ => none) 0 (some 0)
  next := 1
  customFunctions := [⟨.object 0, some 0⟩]
  held := [⟨.object 0, some 0⟩]
  created := [⟨0, 0, 1⟩]

theorem called_madeState : Called Unit .undefined ⟨0, 0, 1⟩ madeState := by
  have yields : ((bodyMachine .undefined).program
      (BodyOperation.perform (.newFunction bodyName 1) : BodyOperation Unit)).Yields
        BodyState.effect .initial (.function (some ⟨.object 0, some 0⟩))
        { madeState with held := [], created := [] } :=
    ⟨0, _, ⟨rfl, rfl⟩, .object 0, _, Or.inr ⟨0, rfl, le_refl 0, rfl⟩, .object 0, _,
      ⟨rfl, ⟨rfl, rfl, le_refl _, rfl, rfl, rfl⟩⟩, (), _, rfl, rfl, rfl⟩
  have begun : (bodyMachine (D := Unit) .undefined).Reaches .initial ⟨.initial, none⟩ := .refl
  have made : (bodyMachine (D := Unit) .undefined).Reaches .initial ⟨madeState, none⟩ :=
    begun.operation (BodyOperation.perform (.newFunction bodyName 1)) trivial yields
  have started : (bodyMachine (D := Unit) .undefined).Step ⟨madeState, none⟩
      ⟨madeState, some (BodyOperation.perform .garbageCollect,
        .acquire (.call .jsRunGC fun _ => .release (.done .nothing)))⟩ :=
    Machine.Step.start (BodyOperation.perform .garbageCollect) trivial
  exact ⟨_, _, _, _, (made.tail started).tail .acquire, rfl,
    ⟨rfl, rfl, le_refl _, rfl, rfl, rfl⟩, List.mem_singleton_self _⟩

end QuickJS

namespace JSC

/-- The body is retained, and the function object and the object with the body
are made. -/
def linkedState : BodyState where
  live := Function.update (fun _ => none) 0 (some 1)
  privateOf := Function.update (fun _ => none) 2 (some 0)
  block := fun _ => none
  stored := fun _ => none
  next := 3
  customFunctions := []
  held := []
  created := []

/-- The object is stored in `__jib_block`. -/
def storedState : BodyState :=
  { linkedState with
    block := Function.update (fun _ => none) 1 (some 2)
    stored := Function.update (fun _ => none) 1 (some 2) }

/-- A function has been made. -/
def madeState : BodyState :=
  { storedState with
    customFunctions := [⟨0, some 1, some 0⟩]
    held := [⟨0, some 1, some 0⟩]
    created := [⟨1, 2, 0, 1⟩] }

theorem called_of_scripted {during : BodyState} (scripted : madeState.Scripted during) :
    Called Unit someJib ⟨1, 2, 0, 1⟩ during := by
  have stores : BodyState.Scripted { linkedState with
      stored := if some jibCallbackProperyName = some jibCallbackProperyName then
        Function.update (fun _ => none) 1 (some 2) else fun _ => none } storedState :=
    ⟨rfl, rfl, by rw [if_pos rfl]; rfl, le_refl _, rfl, rfl, rfl⟩
  have yields : ((bodyMachine someJib).program
      (BodyOperation.perform (.newFunction bodyName 1) : BodyOperation Unit)).Yields
        BodyState.effect .initial (.function (some ⟨0, some 1, some 0⟩))
        { storedState with customFunctions := [⟨0, some 1, some 0⟩] } := by
    refine ⟨false, _, ⟨rfl, rfl⟩, 0, _, BodyState.Scripted.refl _, some 0, _,
      ⟨0, rfl, rfl, rfl⟩, none, _, BodyState.Scripted.refl _, some 1, _,
      Or.inr ⟨1, rfl, le_refl 1, rfl⟩, some 2, linkedState, ⟨2, rfl, le_refl 2, rfl⟩,
      none, storedState, stores, (), _, BodyState.Scripted.refl _, (), _,
      BodyState.Scripted.refl _, (), _, rfl, rfl, rfl⟩
  have begun : (bodyMachine (D := Unit) someJib).Reaches .initial ⟨.initial, none⟩ := .refl
  have made : (bodyMachine (D := Unit) someJib).Reaches .initial ⟨madeState, none⟩ :=
    begun.operation (BodyOperation.perform (.newFunction bodyName 1)) trivial yields
  have started := Relation.ReflTransGen.tail made
    (Machine.Step.start (BodyOperation.perform .garbageCollect) trivial)
  exact ⟨_, _, .readReleased, _, started, rfl, scripted, List.mem_singleton_self _⟩

end JSC

/-! ## Own bodies -/

/-- With QuickJS a function that is called always runs its own live body.  With
JavaScriptCore it does exactly when reading its `__jib_block` gives the object
that was stored there. -/
theorem called_runsOwnBody_iff {D : Type} {global : QuickJS.JSValue}
    {creation : QuickJS.Creation} {during : QuickJS.BodyState} {jib : JSC.JibFields}
    {jscCreation : JSC.Creation} {jscDuring : JSC.BodyState}
    (called : QuickJS.Called D global creation during)
    (jscCalled : JSC.Called D jib jscCreation jscDuring) :
    QuickJS.RunsOwnBody creation during ∧
      (JSC.RunsOwnBody jib.context jscCreation jscDuring ↔
        jscDuring.block jscCreation.function = some jscCreation.blockObject) := by
  constructor
  · obtain ⟨config, operation, command, next, reaches, issues, scripted, created⟩ := called
    exact (QuickJS.intact_of_scripted reaches issues scripted created).runsOwnBody
  · obtain ⟨config, operation, command, next, reaches, issues, scripted, created⟩ := jscCalled
    exact JSC.runsOwnBody_iff reaches issues scripted created

theorem made_runsOwnBody :
    QuickJS.RunsOwnBody ⟨0, 0, 1⟩ QuickJS.madeState ∧
      JSC.RunsOwnBody JSC.someJib.context ⟨1, 2, 0, 1⟩ JSC.madeState := by
  have called := JSC.called_of_scripted (JSC.BodyState.Scripted.refl JSC.madeState)
  have both := called_runsOwnBody_iff QuickJS.called_madeState called
  exact ⟨both.1, both.2.mpr rfl⟩

/-- A script has deleted `__jib_block`. -/
def JSC.deletedState : JSC.BodyState :=
  { JSC.madeState with block := fun _ => none }

/-- A function whose `__jib_block` has been deleted does not run its body. -/
theorem deleted_not_runsOwnBody :
    JSC.Called Unit JSC.someJib ⟨1, 2, 0, 1⟩ JSC.deletedState ∧
      ¬JSC.RunsOwnBody JSC.someJib.context ⟨1, 2, 0, 1⟩ JSC.deletedState := by
  have scripted : JSC.madeState.Scripted JSC.deletedState :=
    ⟨rfl, rfl, rfl, le_refl _, rfl, rfl, rfl⟩
  refine ⟨JSC.called_of_scripted scripted, ?_⟩
  intro runs
  have found := runs.2 none JSC.deletedState ⟨fun _ => rfl, JSC.BodyState.Scripted.refl _⟩
  cases found.1

end Jib
