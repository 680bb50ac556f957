import Jib.QuickJSPublicOperations
import Mathlib.Logic.Function.Basic

/-!
# The bodies behind QuickJS functions

A function that `new(function:body:)` made carries the pointer to its body as
its magic, which is out of reach of scripts.  The bodies themselves are retained
by the functions in `customFunctions`.  Objects are told apart by identity: an
object that is made is new, whatever memory it gets.
-/

namespace Jib.QuickJS

open CommandProgram Program

/-- A function that was made: its function object and its body. -/
structure Creation where
  function : Address
  bodyPtr : AnyPtr
  body : JibFunctionBody
  deriving DecidableEq

/-- Bodies, objects and functions of one `Jib`.  `live` gives the bodies that
have not been freed, `magicOf` the magic of the objects that run the callback.
Objects below `next` are known. -/
structure BodyState where
  live : AnyPtr → Option JibFunctionBody
  magicOf : Address → Option AnyPtr
  next : Address
  customFunctions : List JibFunction
  held : List JibFunction
  created : List Creation

namespace BodyState

def initial : BodyState :=
  ⟨fun _ => none, fun _ => none, 0, [], [], []⟩

/-- What scripts can do: make objects. -/
structure Scripted (before after : BodyState) : Prop where
  live : after.live = before.live
  magicOf : after.magicOf = before.magicOf
  next : before.next ≤ after.next
  customFunctions : after.customFunctions = before.customFunctions
  held : after.held = before.held
  created : after.created = before.created

/-- The answers and effects of commands.  A fresh body goes where no body is
live, and a fresh object is not known. -/
def effect : Effect interface BodyState
  | .makeRetainedPtr body, before, bodyPtr, after =>
      before.live bodyPtr = none ∧
        after = { before with live := Function.update before.live bodyPtr (some body) }
  | .jsNewCFunctionMagic _ _ magic, before, function, after =>
      (function = .exception ∧ Scripted before after) ∨
        ∃ made, function = .object made ∧ before.next ≤ made ∧
          after = { before with
            next := made + 1
            magicOf := Function.update before.magicOf made (some magic) }
  | .appendCustomFunction function, before, _, after =>
      after = { before with customFunctions := before.customFunctions ++ [function] }
  | .jsDupValue value, before, duplicate, after =>
      duplicate = value ∧ Scripted before after
  | _, before, _, after => Scripted before after

/-- `js_call_c_function` on a function that was made: the callback is given the
magic of the object. -/
def invoke (state : BodyState)
    (run : JibFunctionBody → List Bytes → Operation (Option JibUnknown))
    (function : Address) (arguments : List JSValue) : Option (Operation JSValue) :=
  (state.magicOf function).map fun magic =>
    callback (fun bodyPtr => (state.live bodyPtr).map run) magic arguments

end BodyState

/-- What the program does: public operations, giving up a reference to a
function that has other references, and giving up the last one. -/
inductive BodyOperation (D : Type)
  | perform (operation : PublicOperation D)
  | drop (function : JibFunction)
  | deallocate (function : JibFunction)

namespace BodyOperation

variable {D : Type}

def program (global : JSValue) : BodyOperation D → Operation (Reply D)
  | .perform operation => operation.program global
  | .drop _ => return .nothing
  | .deallocate _ => return .nothing

/-- A function that is dropped is held, and its last reference is neither in
`customFunctions` nor held elsewhere. -/
def Enabled : BodyOperation D → BodyState → Prop
  | .perform _, _ => True
  | .drop function, state =>
      function ∈ state.held ∧
        (function ∈ state.customFunctions ∨ function ∈ state.held.erase function)
  | .deallocate function, state =>
      function ∈ state.held ∧ function ∉ state.customFunctions ∧
        function ∉ state.held.erase function

/-- The record of a function that was made. -/
def creations (body : JibFunctionBody) (function : JibFunction) : List Creation :=
  match function.functionValueRef, function.bodyPtr with
  | .object made, some bodyPtr => [⟨made, bodyPtr, body⟩]
  | _, _ => []

/-- `JibFunction.deinit` gives the body back. -/
def free (live : AnyPtr → Option JibFunctionBody) :
    Option AnyPtr → AnyPtr → Option JibFunctionBody
  | some bodyPtr => Function.update live bodyPtr none
  | none => live

/-- The end of an operation. -/
def finish : BodyOperation D → Reply D → BodyState → BodyState
  | .perform (.newFunction _ body), reply, state =>
      { state with
        held := reply.functions ++ state.held
        created := state.created ++ reply.functions.flatMap (creations body) }
  | .perform _, reply, state => { state with held := reply.functions ++ state.held }
  | .drop function, _, state => { state with held := state.held.erase function }
  | .deallocate function, _, state =>
      { state with
        live := free state.live function.bodyPtr
        held := state.held.erase function }

end BodyOperation

/-- The runs of one `Jib` as far as bodies are concerned. -/
def bodyMachine {D : Type} (global : JSValue) :
    Machine interface (BodyOperation D) (Reply D) BodyState where
  program := BodyOperation.program global
  effect := BodyState.effect
  Enabled := BodyOperation.Enabled
  enter := fun _ state => state
  finish := BodyOperation.finish

/-- What calling a function should run. -/
def runBody (run : List Bytes → Operation (Option JibUnknown)) (arguments : List JSValue) :
    Operation JSValue := do
  let parameters ← mapEach callbackParameter arguments
  let result ← run parameters
  callbackResult result

/-- Calling the function runs exactly the body it was made for, and that body
is live. -/
def RunsOwnBody (creation : Creation) (state : BodyState) : Prop :=
  state.live creation.bodyPtr = some creation.body ∧
    ∀ run arguments, state.invoke run creation.function arguments =
      some (runBody (run creation.body) arguments)

/-- The object leads to the body, and the body is live. -/
structure Creation.Intact (creation : Creation) (state : BodyState) : Prop where
  live : state.live creation.bodyPtr = some creation.body
  magicOf : state.magicOf creation.function = some creation.bodyPtr

/-- What holds between operations. -/
structure BodyState.Sound (state : BodyState) : Prop where
  intact : ∀ creation ∈ state.created, creation.Intact state
  known : ∀ object, state.magicOf object ≠ none → object < state.next
  held : ∀ function ∈ state.held, function ∉ state.customFunctions →
    function.bodyPtr = none

/-- What every command finds: every function that was made has its body. -/
def AllIntact (_ : Command) (state : BodyState) : Prop :=
  ∀ creation ∈ state.created, creation.Intact state

theorem Creation.Intact.runsOwnBody {creation : Creation} {state : BodyState}
    (intact : creation.Intact state) : RunsOwnBody creation state := by
  refine ⟨intact.live, ?_⟩
  intro run arguments
  simp [BodyState.invoke, intact.magicOf, callback, intact.live, runBody]

/-! ## What commands preserve -/

namespace BodyState

variable {before middle after : BodyState}

/-- Bodies and magic that are there stay. -/
structure Grown (before after : BodyState) : Prop where
  live : ∀ bodyPtr body, before.live bodyPtr = some body → after.live bodyPtr = some body
  magicOf : ∀ object bodyPtr, before.magicOf object = some bodyPtr →
    after.magicOf object = some bodyPtr
  known : ∀ object, after.magicOf object ≠ none → object < after.next
  customFunctions : before.customFunctions ⊆ after.customFunctions
  held : after.held = before.held
  created : after.created = before.created

theorem Grown.refl {state : BodyState}
    (known : ∀ object, state.magicOf object ≠ none → object < state.next) :
    Grown state state :=
  ⟨fun _ _ same => same, fun _ _ same => same, known, List.Subset.refl _, rfl, rfl⟩

theorem Grown.trans (first : Grown before middle) (second : Grown middle after) :
    Grown before after where
  live := fun bodyPtr body isLive => second.live _ _ (first.live bodyPtr body isLive)
  magicOf := fun object bodyPtr isMagic =>
    second.magicOf _ _ (first.magicOf object bodyPtr isMagic)
  known := second.known
  customFunctions := List.Subset.trans first.customFunctions second.customFunctions
  held := second.held.trans first.held
  created := second.created.trans first.created

theorem Scripted.grown (scripted : Scripted before after)
    (known : ∀ object, before.magicOf object ≠ none → object < before.next) :
    Grown before after where
  live := fun _ _ isLive => by rwa [scripted.live]
  magicOf := fun _ _ isMagic => by rwa [scripted.magicOf]
  known := by
    intro object hasMagic
    rw [scripted.magicOf] at hasMagic
    exact (known object hasMagic).trans_le scripted.next
  customFunctions := by rw [scripted.customFunctions]; exact List.Subset.refl _
  held := scripted.held
  created := scripted.created

/-- Every command keeps the bodies and the magic that are there. -/
theorem grown_of_effect {command : Command} {answer : Answer command}
    (known : ∀ object, before.magicOf object ≠ none → object < before.next)
    (moves : effect command before answer after) : Grown before after := by
  cases command with
  | makeRetainedPtr body =>
      obtain ⟨free, rfl⟩ := moves
      refine ⟨?_, fun _ _ isMagic => isMagic, known, List.Subset.refl _, rfl, rfl⟩
      intro bodyPtr other isLive
      refine (Function.update_of_ne ?_ _ _).trans isLive
      rintro rfl
      rw [free] at isLive
      cases isLive
  | jsNewCFunctionMagic name length magic =>
      obtain ⟨rfl, scripted⟩ | ⟨made, rfl, fresh, rfl⟩ := moves
      · exact scripted.grown known
      · refine ⟨fun _ _ isLive => isLive, ?_, ?_, List.Subset.refl _, rfl, rfl⟩
        · intro object bodyPtr isMagic
          refine (Function.update_of_ne ?_ _ _).trans isMagic
          rintro rfl
          exact absurd (known object (by simp [isMagic])) (not_lt.mpr fresh)
        · intro object hasMagic
          by_cases same : object = made
          · exact same ▸ Nat.lt_succ_self made
          · have old : before.magicOf object ≠ none := by
              simpa [Function.update_of_ne same] using hasMagic
            exact (known object old).trans_le (fresh.trans (Nat.le_succ _))
  | appendCustomFunction function =>
      obtain rfl := moves
      exact ⟨fun _ _ isLive => isLive, fun _ _ isMagic => isMagic, known,
        List.subset_append_left _ _, rfl, rfl⟩
  | jsDupValue value => exact moves.2.grown known
  | _ => exact Scripted.grown moves known

theorem Sound.grown (sound : before.Sound) (grown : Grown before after) : after.Sound where
  intact := by
    intro creation made
    rw [grown.created] at made
    have intact := sound.intact creation made
    exact ⟨grown.live _ _ intact.live, grown.magicOf _ _ intact.magicOf⟩
  known := grown.known
  held := by
    intro function isHeld notCustom
    rw [grown.held] at isHeld
    exact sound.held function isHeld fun wasCustom => notCustom (grown.customFunctions wasCustom)

/-- Programs that balance keep everything and return functions without bodies. -/
theorem satisfies_of_balances {α : Type} {held : References}
    {post : α → References → Prop} {program : Operation α} {state : BodyState}
    (balances : Balances held post program) (sound : state.Sound) :
    program.Satisfies effect AllIntact
      (fun value after => (∃ left, post value left) ∧ Grown state after) state := by
  refine (Satisfies.simulate (fun _ => Grown state) (balances 0) ?_ (.refl sound.known)).mono ?_
  · intro command _ before grown _
    refine ⟨(sound.grown grown).intact, ?_⟩
    intro answer after moves
    refine ⟨_, ⟨?_, rfl⟩, grown.trans (grown_of_effect grown.known moves)⟩
    cases command with
    | jsDupValue value => exact moves.1
    | _ => trivial
  · rintro value after ⟨_, ⟨left, holds, _⟩, grown⟩
    exact ⟨⟨left, holds⟩, grown⟩

end BodyState

open BodyState

/-! ## Every run -/

section Runs

variable {D : Type} {state during : BodyState} {global : JSValue}

/-- The program is given functions that were looked up. -/
theorem BodyState.Sound.give (sound : state.Sound) {functions : List JibFunction}
    (noBody : ∀ function ∈ functions, function.bodyPtr = none) :
    ({ state with held := functions ++ state.held } : BodyState).Sound where
  intact := fun creation made =>
    ⟨(sound.intact creation made).live, (sound.intact creation made).magicOf⟩
  known := sound.known
  held := by
    intro function isHeld notCustom
    rcases List.mem_append.mp isHeld with isGiven | wasHeld
    · exact noBody function isGiven
    · exact sound.held function wasHeld notCustom

/-- The program is given a function that was made. -/
theorem BodyState.Sound.make (sound : state.Sound) {function : JibFunction}
    {body : JibFunctionBody} (isKept : function ∈ state.customFunctions)
    (intact : ∀ creation ∈ BodyOperation.creations body function, creation.Intact state) :
    ({ state with
        held := function :: state.held
        created := state.created ++ BodyOperation.creations body function } :
      BodyState).Sound where
  intact := by
    intro creation made
    rcases List.mem_append.mp made with wasMade | isNew
    · exact ⟨(sound.intact creation wasMade).live, (sound.intact creation wasMade).magicOf⟩
    · exact ⟨(intact creation isNew).live, (intact creation isNew).magicOf⟩
  known := sound.known
  held := by
    intro other isHeld notCustom
    rcases List.mem_cons.mp isHeld with rfl | wasHeld
    · exact (notCustom isKept).elim
    · exact sound.held other wasHeld notCustom

theorem BodyState.Sound.erase (sound : state.Sound) (function : JibFunction) :
    ({ state with held := state.held.erase function } : BodyState).Sound where
  intact := fun creation made =>
    ⟨(sound.intact creation made).live, (sound.intact creation made).magicOf⟩
  known := sound.known
  held := fun other isHeld => sound.held other (List.mem_of_mem_erase isHeld)

/-- A new function carries the pointer to its body. -/
theorem satisfies_newFunction (global : JSValue) (name : HalfHitch) (body : JibFunctionBody)
    (sound : state.Sound) :
    ((PublicOperation.newFunction name body : PublicOperation D).program global).Satisfies
      effect AllIntact
      (fun reply after =>
        ((BodyOperation.perform (.newFunction name body)).finish reply after).Sound) state := by
  refine ⟨sound.intact, ?_⟩
  intro bodyPtr retained retains
  have sound := sound.grown (grown_of_effect sound.known retains)
  have isLive : retained.live bodyPtr = some body := by
    obtain ⟨_, rfl⟩ := retains
    exact Function.update_self _ _ _
  refine ⟨sound.intact, ?_⟩
  intro functionValue made makes
  have grown := grown_of_effect sound.known makes
  have sound := sound.grown grown
  have isLive := grown.live _ _ isLive
  have isLinked : ∀ object, functionValue = .object object →
      made.magicOf object = some bodyPtr := by
    rintro object rfl
    obtain ⟨isException, _⟩ | ⟨_, isObject, _, rfl⟩ := makes
    · cases isException
    · cases isObject
      exact Function.update_self _ _ _
  refine ⟨sound.intact, ?_⟩
  intro functionValueRef duplicated ⟨isValue, scripted⟩
  have grown := scripted.grown sound.known
  have sound := sound.grown grown
  refine ⟨sound.intact, ?_⟩
  intro _ after appends
  have kept := grown_of_effect sound.known appends
  have isKept : (⟨functionValueRef, some bodyPtr⟩ : JibFunction) ∈ after.customFunctions := by
    rw [show after = _ from appends]
    exact List.mem_append_right _ (List.mem_singleton_self _)
  have intact : ∀ creation ∈ BodyOperation.creations body ⟨functionValueRef, some bodyPtr⟩,
      creation.Intact after := by
    intro creation isNew
    cases functionValueRef with
    | object object =>
        obtain rfl := List.mem_singleton.mp isNew
        have isMagic := isLinked object isValue.symm
        exact ⟨kept.live _ _ (grown.live _ _ isLive), kept.magicOf _ _ (grown.magicOf _ _ isMagic)⟩
    | _ => cases isNew
  have finished := (sound.grown kept).make isKept intact
  rw [← List.append_nil (BodyOperation.creations body _)] at finished
  exact finished

/-- Between operations everything is sound. -/
theorem satisfies_operation (operation : BodyOperation D) (sound : state.Sound)
    (enabled : operation.Enabled state) :
    (operation.program global).Satisfies effect AllIntact
      (fun reply after => (operation.finish reply after).Sound) state := by
  cases operation with
  | drop function => exact sound.erase function
  | deallocate function =>
      obtain ⟨isHeld, notCustom, _⟩ := enabled
      have noBody := sound.held function isHeld notCustom
      change BodyState.Sound { state with
        live := BodyOperation.free state.live function.bodyPtr
        held := state.held.erase function }
      rw [noBody]
      exact sound.erase function
  | perform operation =>
      by_cases isNew : ∃ name body, operation = .newFunction name body
      · obtain ⟨name, body, rfl⟩ := isNew
        exact satisfies_newFunction global name body sound
      · have notNew : ∀ name body, operation ≠ .newFunction name body :=
          fun name body same => isNew ⟨name, body, same⟩
        apply (satisfies_of_balances (operation.balances global notNew) sound).mono
        rintro reply after ⟨⟨_, obtained⟩, grown⟩
        have given := (sound.grown grown).give obtained.1
        cases operation with
        | newFunction name body => exact (notNew name body rfl).elim
        | _ => exact given

theorem contract_bodyMachine (global : JSValue) :
    (bodyMachine (D := D) global).Contract AllIntact BodyState.Sound
      (fun operation reply after => (operation.finish reply after).Sound) where
  operations := fun operation _ => satisfies_operation operation
  finish := fun _ _ _ sound => sound

theorem sound_initial : BodyState.initial.Sound where
  intact := by simp [BodyState.initial]
  known := by simp [BodyState.initial]
  held := by simp [BodyState.initial]

/-- In every run, whatever the scripts that an engine call runs have done so
far, the object of a function that was made leads to its live body. -/
theorem intact_of_scripted
    {config : Machine.Config interface (BodyOperation D) (Reply D) BodyState}
    (reaches : (bodyMachine global).Reaches .initial config)
    {operation : BodyOperation D} {command : Command}
    {next : Answer command → Operation (Reply D)}
    (issues : config.running = some (operation, .call command next))
    (scripted : Scripted config.state during) {creation : Creation}
    (created : creation ∈ config.state.created) : creation.Intact during := by
  have intact := reaches.needs (contract_bodyMachine global) sound_initial issues creation created
  constructor
  · rw [scripted.live, intact.live]
  · rw [scripted.magicOf, intact.magicOf]

end Runs

end Jib.QuickJS
