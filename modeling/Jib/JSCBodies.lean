import Jib.JSCPublicOperations
import Mathlib.Logic.Function.Basic

/-!
# The bodies behind JavaScriptCore functions

A function that `new(function:body:)` made finds its body through an object in
its `__jib_block` property.  Scripts can do anything to properties, so reading
that property may give anything; the bodies themselves are retained by the
functions in `customFunctions`, and the private data of an object is out of
reach of scripts.
-/

namespace Jib.JSC

open CommandProgram Program

/-- A function that was made: its function object, the object that was stored
in its `__jib_block`, and its body. -/
structure Creation where
  function : JSObjectRef
  blockObject : JSObjectRef
  bodyPtr : Address
  body : JibFunctionBody
  deriving DecidableEq

/-- Bodies, objects and functions of one `Jib`.  `live` gives the bodies that
have not been freed, `privateOf` the private data of objects, `block` what
reading `__jib_block` of an object gives, `stored` what was last stored there
by the Swift side.  Objects below `next` are known. -/
structure BodyState where
  live : Address → Option JibFunctionBody
  privateOf : JSObjectRef → AnyPtr
  block : JSObjectRef → Option JSValueRef
  stored : JSObjectRef → Option JSObjectRef
  next : JSObjectRef
  customFunctions : List JibFunction
  held : List JibFunction
  created : List Creation

namespace BodyState

def initial : BodyState :=
  ⟨fun _ => none, fun _ => none, fun _ => none, fun _ => none, 1, [], [], []⟩

/-- What scripts can do: make objects and change what reading properties
gives. -/
structure Scripted (before after : BodyState) : Prop where
  live : after.live = before.live
  privateOf : after.privateOf = before.privateOf
  stored : after.stored = before.stored
  next : before.next ≤ after.next
  customFunctions : after.customFunctions = before.customFunctions
  held : after.held = before.held
  created : after.created = before.created

/-- Freeing the body at a pointer. -/
def free (live : Address → Option JibFunctionBody) :
    AnyPtr → Address → Option JibFunctionBody
  | some address => Function.update live address none
  | none => live

/-- The answers and effects of commands.  A fresh body goes where no body is
live, and a fresh object is not known. -/
def effect : Effect interface BodyState
  | .readReleased, before, released, after => released = false ∧ after = before
  | .makeRetainedPtr body, before, bodyPtr, after =>
      ∃ address, bodyPtr = some address ∧ before.live address = none ∧
        after = { before with live := Function.update before.live address (some body) }
  | .makeReleasedClass bodyPtr, before, _, after =>
      after = { before with live := free before.live bodyPtr }
  | .appendCustomFunction function, before, _, after =>
      after = { before with customFunctions := before.customFunctions ++ [function] }
  | .jsObjectMake _ _ data, before, object, after =>
      ∃ made, object = some made ∧ before.next ≤ made ∧
        after = { before with
          next := made + 1
          privateOf := Function.update before.privateOf made data }
  | .jsObjectMakeFunctionWithCallback _ _, before, function, after =>
      (function = none ∧ after = before) ∨
        ∃ made, function = some made ∧ before.next ≤ made ∧
          after = { before with next := made + 1 }
  | .jsObjectSetProperty _ object name value _, before, _, after =>
      Scripted
        { before with
          stored :=
            if name = some jibCallbackProperyName then
              Function.update before.stored object value
            else before.stored } after
  | .jsObjectGetProperty _ object name, before, value, after =>
      (name = jibCallbackProperyName → value = before.block object) ∧
        Scripted before after
  | .jsObjectGetPrivate object, before, data, after =>
      data = before.privateOf object ∧ after = before
  | .jsObjectIsFunction _ object, before, isFunction, after =>
      (isFunction = true → before.privateOf object = none) ∧ after = before
  | _, before, _, after => Scripted before after

end BodyState

/-- What the program does: public operations, giving up a reference to a
function that has other references, and giving up the last one. -/
inductive BodyOperation (D : Type)
  | perform (operation : PublicOperation D)
  | drop (function : JibFunction)
  | deallocate (function : JibFunction)

namespace BodyOperation

variable {D : Type}

def program (jib : JibFields) : BodyOperation D → Operation (Reply D)
  | .perform operation => operation.program jib
  | .drop _ => return .nothing
  | .deallocate function => do
      function.deinit
      return .nothing

/-- A function that is dropped is held, and its last reference is neither in
`customFunctions` nor held elsewhere. -/
def Enabled : BodyOperation D → BodyState → Prop
  | .perform _, _ => True
  | .drop function, state =>
      function ∈ state.held ∧
        (function ∈ state.customFunctions ∨ function ∈ state.held.erase function)
  | .deallocate function, state =>
      function ∈ state.held ∧ function ∉ state.customFunctions ∧
        function ∉ state.held.erase function

/-- The record of a function that was made. -/
def creations (body : JibFunctionBody) (state : BodyState) (function : JibFunction) :
    List Creation :=
  match function.objectRef, function.bodyPtr with
  | some objectRef, some bodyPtr =>
      match state.stored objectRef with
      | some blockObject => [⟨objectRef, blockObject, bodyPtr, body⟩]
      | none => []
  | _, _ => []

def finish : BodyOperation D → Reply D → BodyState → BodyState
  | .perform (.newFunction _ body), reply, state =>
      { state with
        held := reply.functions ++ state.held
        created := state.created ++ (reply.functions).flatMap (creations body state) }
  | .perform _, reply, state => { state with held := reply.functions ++ state.held }
  | .drop function, _, state => { state with held := state.held.erase function }
  | .deallocate function, _, state => { state with held := state.held.erase function }

end BodyOperation

/-- The runs of one `Jib` as far as bodies are concerned. -/
def bodyMachine {D : Type} (jib : JibFields) :
    Machine interface (BodyOperation D) (Reply D) BodyState where
  program := BodyOperation.program jib
  effect := BodyState.effect
  Enabled := BodyOperation.Enabled
  enter := fun _ state => state
  finish := BodyOperation.finish

/-- Calling the function runs exactly the body it was made for, and that body
is live. -/
def RunsOwnBody (context : JSGlobalContextRef) (creation : Creation)
    (state : BodyState) : Prop :=
  (callbackBody context creation.function).Satisfies BodyState.effect (fun _ _ => True)
    (fun bodyPtr after => bodyPtr = some creation.bodyPtr ∧
      after.live creation.bodyPtr = some creation.body) state

/-- The body is live and only its own object leads to it. -/
structure Creation.Intact (creation : Creation) (state : BodyState) : Prop where
  live : state.live creation.bodyPtr = some creation.body
  privateOf : ∀ object, state.privateOf object = some creation.bodyPtr ↔
    object = creation.blockObject

/-- What holds between operations. -/
structure BodyState.Sound (state : BodyState) : Prop where
  intact : ∀ creation ∈ state.created, creation.Intact state
  known : ∀ object, state.privateOf object ≠ none → object < state.next
  retained : ∀ object bodyPtr, state.privateOf object = some bodyPtr →
    state.live bodyPtr ≠ none
  held : ∀ function ∈ state.held, function ∉ state.customFunctions →
    function.bodyPtr = none

/-! ## What operations preserve -/

namespace BodyState

/-- Everything but what reading properties gives is as it was. -/
structure Unaltered (before after : BodyState) : Prop where
  live : after.live = before.live
  privateOf : after.privateOf = before.privateOf
  next : before.next ≤ after.next
  customFunctions : after.customFunctions = before.customFunctions
  held : after.held = before.held
  created : after.created = before.created

variable {before middle after : BodyState}

theorem Unaltered.refl (state : BodyState) : Unaltered state state :=
  ⟨rfl, rfl, le_refl _, rfl, rfl, rfl⟩

theorem Unaltered.trans (first : Unaltered before middle)
    (second : Unaltered middle after) : Unaltered before after where
  live := second.live.trans first.live
  privateOf := second.privateOf.trans first.privateOf
  next := first.next.trans second.next
  customFunctions := second.customFunctions.trans first.customFunctions
  held := second.held.trans first.held
  created := second.created.trans first.created

theorem Scripted.refl (state : BodyState) : Scripted state state :=
  ⟨rfl, rfl, rfl, le_refl _, rfl, rfl, rfl⟩

theorem Scripted.unaltered (scripted : Scripted before after) : Unaltered before after :=
  ⟨scripted.live, scripted.privateOf, scripted.next, scripted.customFunctions,
    scripted.held, scripted.created⟩

theorem Unaltered.of_stored {stored : JSObjectRef → Option JSObjectRef}
    (scripted : Scripted { before with stored := stored } after) : Unaltered before after :=
  ⟨scripted.live, scripted.privateOf, scripted.next, scripted.customFunctions,
    scripted.held, scripted.created⟩

theorem unaltered_of_plain {command : Command} {answer : Answer command}
    (plain : command.isPlain = true) (moves : effect command before answer after) :
    Unaltered before after := by
  cases command with
  | readReleased =>
      obtain ⟨_, rfl⟩ := moves
      exact .refl after
  | jsObjectSetProperty context object name value attributes => exact .of_stored moves
  | jsObjectGetProperty context object name => exact moves.2.unaltered
  | jsObjectGetPrivate object =>
      obtain ⟨_, rfl⟩ := moves
      exact .refl after
  | jsObjectIsFunction context object =>
      obtain ⟨_, rfl⟩ := moves
      exact .refl after
  | _ => first | exact Scripted.unaltered moves | cases plain

end BodyState

theorem Creation.Intact.unaltered {creation : Creation} {before after : BodyState}
    (intact : creation.Intact before) (unaltered : before.Unaltered after) :
    creation.Intact after where
  live := by rw [unaltered.live, intact.live]
  privateOf := by rw [unaltered.privateOf]; exact intact.privateOf

namespace BodyState

variable {before middle after : BodyState}

theorem Sound.unaltered (sound : before.Sound) (unaltered : Unaltered before after) :
    after.Sound where
  intact := by
    intro creation made
    rw [unaltered.created] at made
    exact (sound.intact creation made).unaltered unaltered
  known := by
    intro object hasData
    rw [unaltered.privateOf] at hasData
    exact (sound.known object hasData).trans_le unaltered.next
  retained := by
    intro object bodyPtr isData
    rw [unaltered.privateOf] at isData
    rw [unaltered.live]
    exact sound.retained object bodyPtr isData
  held := by
    intro function isHeld
    rw [unaltered.held] at isHeld
    rw [unaltered.customFunctions]
    exact sound.held function isHeld

end BodyState

open BodyState

/-- What every command finds: every function that was made has its body. -/
def AllIntact (_ : Command) (state : BodyState) : Prop :=
  ∀ creation ∈ state.created, creation.Intact state

theorem satisfies_of_passes {α : Type} {context : JSGlobalContextRef} {post : α → Prop}
    {program : Operation α} {state : BodyState} (sound : state.Sound)
    (passes : Passes context (fun _ => True) (fun object => state.privateOf object = none)
      post program) :
    program.Satisfies effect AllIntact
      (fun value after => post value ∧ Unaltered state after) state := by
  refine (Satisfies.simulate (fun _ => Unaltered state) passes ?_
    (Unaltered.refl state)).mono ?_
  · intro command _ before unaltered proper
    refine ⟨(sound.unaltered unaltered).intact, ?_⟩
    intro answer after moves
    refine ⟨(), ⟨fun _ _ => trivial, ?_⟩, unaltered.trans (unaltered_of_plain proper.1 moves)⟩
    cases command with
    | jsObjectIsFunction context object =>
        rw [← unaltered.privateOf]
        exact moves.1
    | jsObjectGetPrivate object =>
        intro noData
        rw [moves.1, unaltered.privateOf]
        exact noData
    | _ => trivial
  · rintro value after ⟨_, holds, unaltered⟩
    exact ⟨holds, unaltered⟩

/-! ## Making functions -/

/-- A body that no object leads to yet. -/
structure Allocated (before : BodyState) (bodyPtr : Address) (body : JibFunctionBody)
    (state : BodyState) : Prop where
  sound : state.Sound
  live : state.live bodyPtr = some body
  unlinked : ∀ object, state.privateOf object ≠ some bodyPtr
  customFunctions : state.customFunctions = before.customFunctions
  held : state.held = before.held
  created : state.created = before.created

/-- A body and the only object that leads to it. -/
structure Linked (before : BodyState) (blockObject : JSObjectRef) (bodyPtr : Address)
    (body : JibFunctionBody) (state : BodyState) : Prop where
  sound : state.Sound
  live : state.live bodyPtr = some body
  linked : ∀ object, state.privateOf object = some bodyPtr ↔ object = blockObject
  customFunctions : state.customFunctions = before.customFunctions
  held : state.held = before.held
  created : state.created = before.created

variable {before state after : BodyState} {bodyPtr : Address} {body : JibFunctionBody}
  {blockObject : JSObjectRef}

theorem Allocated.unaltered (allocated : Allocated before bodyPtr body state)
    (unaltered : Unaltered state after) : Allocated before bodyPtr body after where
  sound := allocated.sound.unaltered unaltered
  live := by rw [unaltered.live, allocated.live]
  unlinked := by rw [unaltered.privateOf]; exact allocated.unlinked
  customFunctions := unaltered.customFunctions.trans allocated.customFunctions
  held := unaltered.held.trans allocated.held
  created := unaltered.created.trans allocated.created

theorem Linked.unaltered (linked : Linked before blockObject bodyPtr body state)
    (unaltered : Unaltered state after) : Linked before blockObject bodyPtr body after where
  sound := linked.sound.unaltered unaltered
  live := by rw [unaltered.live, linked.live]
  linked := by rw [unaltered.privateOf]; exact linked.linked
  customFunctions := unaltered.customFunctions.trans linked.customFunctions
  held := unaltered.held.trans linked.held
  created := unaltered.created.trans linked.created

/-- A retained body is fresh: no object leads to where it is. -/
theorem allocated_of_makeRetainedPtr (sound : state.Sound)
    (unaltered : Unaltered before state) (free : state.live bodyPtr = none) :
    Allocated before bodyPtr body
      { state with live := Function.update state.live bodyPtr (some body) } := by
  have unlinked : ∀ object, state.privateOf object ≠ some bodyPtr := by
    intro object isData
    exact sound.retained object bodyPtr isData free
  have others : ∀ address, state.live address ≠ none →
      Function.update state.live bodyPtr (some body) address = state.live address := by
    intro address isLive
    refine Function.update_of_ne ?_ _ _
    rintro rfl
    exact isLive free
  refine ⟨⟨?_, sound.known, ?_, sound.held⟩, Function.update_self _ _ _, unlinked,
    unaltered.customFunctions, unaltered.held, unaltered.created⟩
  · intro creation made
    have intact := sound.intact creation made
    exact ⟨(others _ (by simp [intact.live])).trans intact.live, intact.privateOf⟩
  · intro object other isData
    have isLive := sound.retained object other isData
    change Function.update state.live bodyPtr (some body) other ≠ none
    rwa [others _ isLive]

/-- Making the object links it to the body. -/
theorem Allocated.linked (allocated : Allocated before bodyPtr body state)
    (fresh : state.next ≤ blockObject) :
    Linked before blockObject bodyPtr body
      { state with
        next := blockObject + 1
        privateOf := Function.update state.privateOf blockObject (some bodyPtr) } := by
  have noData : state.privateOf blockObject = none := by
    by_contra hasData
    exact absurd (allocated.sound.known blockObject hasData) (not_lt.mpr fresh)
  have isLinked : ∀ object, Function.update state.privateOf blockObject (some bodyPtr)
      object = some bodyPtr ↔ object = blockObject := by
    intro object
    by_cases same : object = blockObject
    · simp [same]
    · simp [same, allocated.unlinked object]
  refine ⟨⟨?_, ?_, ?_, allocated.sound.held⟩, allocated.live, isLinked,
    allocated.customFunctions, allocated.held, allocated.created⟩
  · intro creation made
    have intact := allocated.sound.intact creation made
    refine ⟨intact.live, ?_⟩
    intro object
    change Function.update state.privateOf blockObject (some bodyPtr) object = _ ↔ _
    by_cases same : object = blockObject
    · subst object
      have notOwn : blockObject ≠ creation.blockObject := by
        rintro rfl
        rw [(intact.privateOf _).mpr rfl] at noData
        cases noData
      have notPtr : bodyPtr ≠ creation.bodyPtr := by
        rintro rfl
        exact allocated.unlinked _ ((intact.privateOf creation.blockObject).mpr rfl)
      simp [notOwn, notPtr]
    · rw [Function.update_of_ne same]
      exact intact.privateOf object
  · intro object hasData
    by_cases same : object = blockObject
    · exact same ▸ Nat.lt_succ_self blockObject
    · have old : state.privateOf object ≠ none := by
        simpa [Function.update_of_ne same] using hasData
      exact (allocated.sound.known object old).trans_le (fresh.trans (Nat.le_succ _))
  · intro object other isData
    by_cases same : object = blockObject
    · subst object
      obtain rfl : bodyPtr = other := by simpa using isData
      simp [allocated.live]
    · have old : state.privateOf object = some other := by
        simpa [Function.update_of_ne same] using isData
      exact allocated.sound.retained object other old

/-- A body that no object leads to can be freed. -/
theorem Allocated.free (allocated : Allocated before bodyPtr body state) :
    ({ state with live := Function.update state.live bodyPtr none } : BodyState).Sound := by
  have others : ∀ object address, state.privateOf object = some address →
      Function.update state.live bodyPtr none address = state.live address := by
    intro object address isData
    refine Function.update_of_ne ?_ _ _
    rintro rfl
    exact allocated.unlinked object isData
  refine ⟨?_, allocated.sound.known, ?_, allocated.sound.held⟩
  · intro creation made
    have intact := allocated.sound.intact creation made
    exact ⟨(others _ _ ((intact.privateOf _).mpr rfl)).trans intact.live, intact.privateOf⟩
  · intro object other isData
    change Function.update state.live bodyPtr none other ≠ none
    rw [others object other isData]
    exact allocated.sound.retained object other isData

/-- What a function that has been made is. -/
def Made (before : BodyState) (body : JibFunctionBody) (function : JibFunction)
    (after : BodyState) : Prop :=
  ∃ objectRef blockObject bodyPtr, function.objectRef = some objectRef ∧
    function.bodyPtr = some bodyPtr ∧ after.stored objectRef = some blockObject ∧
      Linked before blockObject bodyPtr body after

/-- Nothing has been made. -/
def Unmade (before after : BodyState) : Prop :=
  after.Sound ∧ after.customFunctions = before.customFunctions ∧
    after.held = before.held ∧ after.created = before.created

theorem Unmade.unaltered {middle : BodyState} (unmade : Unmade before middle)
    (unaltered : Unaltered middle after) : Unmade before after :=
  ⟨unmade.1.unaltered unaltered, unaltered.customFunctions.trans unmade.2.1,
    unaltered.held.trans unmade.2.2.1, unaltered.created.trans unmade.2.2.2⟩

/-- The function that could not be made frees its body. -/
theorem satisfies_deinit_unmade {jsClass : JSClassRef}
    (allocated : Allocated before bodyPtr body state) :
    (JibFunction.deinit ⟨jsClass, none, some bodyPtr⟩).Satisfies effect AllIntact
      (fun _ after => Unmade before after) state := by
  refine ⟨allocated.sound.intact, ?_⟩
  rintro _ _ rfl
  have freed : Unmade before
      { state with live := Function.update state.live bodyPtr none } :=
    ⟨allocated.free, allocated.customFunctions, allocated.held, allocated.created⟩
  refine ⟨freed.1.intact, ?_⟩
  intro _ classReleased scripted
  have unmade := freed.unaltered (Scripted.unaltered scripted)
  refine ⟨unmade.1.intact, ?_⟩
  intro found loaded scripted
  have unmade := unmade.unaltered (Scripted.unaltered scripted)
  cases found with
  | none => exact unmade
  | some jib =>
      refine ⟨unmade.1.intact, ?_⟩
      rintro _ _ ⟨rfl, rfl⟩
      refine ⟨unmade.1.intact, ?_⟩
      intro _ unprotected scripted
      exact unmade.unaltered (Scripted.unaltered scripted)

theorem Allocated.satisfies_createJSString (name : HalfHitch)
    (allocated : Allocated before bodyPtr body state) :
    (createJSString name).Satisfies effect AllIntact
      (fun _ after => Allocated before bodyPtr body after) state := by
  have passes : Passes 0 (fun _ => True) (fun object => state.privateOf object = none)
      (fun _ => True) (createJSString name) := passes_createJSString name
  exact (satisfies_of_passes allocated.sound passes).mono fun _ _ holds =>
    allocated.unaltered holds.2

theorem satisfies_makeJibFunction (jib : JibFields) (name : HalfHitch)
    (sound : state.Sound) :
    (makeJibFunction jib name body).Satisfies effect AllIntact
      (fun made after => match made with
        | some function => Made state body function after
        | none => Unmade state after) state := by
  refine ⟨sound.intact, ?_⟩
  intro jsClass classMade scripted
  have unaltered := Scripted.unaltered scripted
  have soundClass := sound.unaltered unaltered
  refine ⟨soundClass.intact, ?_⟩
  rintro _ _ ⟨bodyPtr, rfl, free, rfl⟩
  have allocated : Allocated state bodyPtr body _ :=
    allocated_of_makeRetainedPtr soundClass unaltered free
  change Satisfies effect AllIntact _ (createJSString name >>= _) _
  refine Satisfies.bind ((allocated.satisfies_createJSString name).mono ?_)
  intro functionName named allocated
  refine ⟨allocated.sound.intact, ?_⟩
  rintro objectRef functionMade (⟨rfl, rfl⟩ | ⟨object, rfl, fresh, rfl⟩)
  · refine ⟨allocated.sound.intact, ?_⟩
    intro _ released scripted
    have allocated := allocated.unaltered (Scripted.unaltered scripted)
    change Satisfies effect AllIntact _ (JibFunction.deinit _ >>= _) _
    exact Satisfies.bind ((satisfies_deinit_unmade allocated).mono fun _ _ unmade => unmade)
  · have known : Unaltered named { named with next := object + 1 } :=
      ⟨rfl, rfl, fresh.trans (Nat.le_succ object), rfl, rfl, rfl⟩
    have allocated := allocated.unaltered known
    refine ⟨allocated.sound.intact, ?_⟩
    rintro _ _ ⟨blockObject, rfl, fresh, rfl⟩
    have linked := allocated.linked fresh
    refine ⟨linked.sound.intact, ?_⟩
    intro _ assigned scripted
    have stored : assigned.stored object = some blockObject := by
      rw [scripted.stored]
      simp
    have linked := linked.unaltered (.of_stored scripted)
    refine ⟨linked.sound.intact, ?_⟩
    intro _ guarded scripted
    have linked := linked.unaltered (Scripted.unaltered scripted)
    have stored := (congrFun scripted.stored object).trans stored
    refine ⟨linked.sound.intact, ?_⟩
    intro _ released scripted
    have linked := linked.unaltered (Scripted.unaltered scripted)
    have stored := (congrFun scripted.stored object).trans stored
    exact ⟨object, blockObject, bodyPtr, rfl, rfl, stored, linked⟩

/-! ## Every run -/

theorem BodyState.Sound.erase (sound : state.Sound) (function : JibFunction) :
    ({ state with held := state.held.erase function } : BodyState).Sound where
  intact := fun creation made =>
    ⟨(sound.intact creation made).live, (sound.intact creation made).privateOf⟩
  known := sound.known
  retained := sound.retained
  held := fun other isHeld => sound.held other (List.mem_of_mem_erase isHeld)

/-- The program is given functions without bodies. -/
theorem BodyState.Sound.give (sound : state.Sound) {functions : List JibFunction}
    (noBody : ∀ function ∈ functions, function.bodyPtr = none) :
    ({ state with held := functions ++ state.held } : BodyState).Sound where
  intact := fun creation made =>
    ⟨(sound.intact creation made).live, (sound.intact creation made).privateOf⟩
  known := sound.known
  retained := sound.retained
  held := by
    intro function isHeld notCustom
    rcases List.mem_append.mp isHeld with isGiven | wasHeld
    · exact noBody function isGiven
    · exact sound.held function wasHeld notCustom

/-- The program is given a function that has been made. -/
theorem Linked.sound_finish (linked : Linked before blockObject bodyPtr body state)
    {objectRef : JSObjectRef} {jsClass : JSClassRef} :
    ({ state with
        customFunctions := state.customFunctions ++ [⟨jsClass, some objectRef, some bodyPtr⟩]
        held := ⟨jsClass, some objectRef, some bodyPtr⟩ :: state.held
        created := state.created ++ [⟨objectRef, blockObject, bodyPtr, body⟩] } :
      BodyState).Sound where
  intact := by
    intro creation made
    rcases List.mem_append.mp made with wasMade | isNew
    · exact ⟨(linked.sound.intact creation wasMade).live,
        (linked.sound.intact creation wasMade).privateOf⟩
    · obtain rfl := List.mem_singleton.mp isNew
      exact ⟨linked.live, linked.linked⟩
  known := linked.sound.known
  retained := linked.sound.retained
  held := by
    intro function isHeld notCustom
    simp only [List.mem_append, List.mem_singleton, not_or] at notCustom
    rcases List.mem_cons.mp isHeld with isNew | wasHeld
    · exact (notCustom.2 isNew).elim
    · exact linked.sound.held function wasHeld notCustom.1

theorem satisfies_newFunction {D : Type} (jib : JibFields) (name : HalfHitch)
    (sound : state.Sound) :
    ((PublicOperation.newFunction name body : PublicOperation D).program jib).Satisfies
      effect AllIntact
      (fun reply after =>
        ((BodyOperation.perform (.newFunction name body)).finish reply after).Sound) state := by
  refine ⟨sound.intact, ?_⟩
  rintro _ _ ⟨rfl, rfl⟩
  change Satisfies effect AllIntact _
    (locked (makeJibFunction jib name body >>= _) >>= _) _
  refine Satisfies.bind (Satisfies.locked (Satisfies.bind
    ((satisfies_makeJibFunction jib name sound).mono ?_)))
  intro made after holds
  cases made with
  | none =>
      simpa [BodyOperation.finish, Reply.functions] using holds.1
  | some function =>
      obtain ⟨objectRef, blockObject, bodyPtr, hasObject, hasBody, stored, linked⟩ := holds
      refine ⟨linked.sound.intact, ?_⟩
      rintro _ _ rfl
      obtain ⟨jsClass, _, _⟩ := function
      obtain rfl : _ = some objectRef := hasObject
      obtain rfl : _ = some bodyPtr := hasBody
      change (BodyOperation.finish (.perform (.newFunction name body) : BodyOperation D)
        (.function (some _)) _).Sound
      simp only [BodyOperation.finish, Reply.functions, Option.toList_some,
        List.flatMap_cons, List.flatMap_nil, List.append_nil, BodyOperation.creations, stored]
      exact linked.sound_finish

/-- A function whose last reference goes away has no body. -/
theorem satisfies_deinit {function : JibFunction} (sound : state.Sound)
    (noBody : function.bodyPtr = none) :
    function.deinit.Satisfies effect AllIntact
      (fun _ after => after.Sound ∧ after.held = state.held) state := by
  refine ⟨sound.intact, ?_⟩
  rintro _ _ rfl
  rw [noBody]
  refine ⟨sound.intact, ?_⟩
  intro _ classReleased scripted
  have unaltered := Scripted.unaltered scripted
  refine ⟨(sound.unaltered unaltered).intact, ?_⟩
  intro found loaded scripted
  have unaltered := unaltered.trans (Scripted.unaltered scripted)
  cases found with
  | none => exact ⟨sound.unaltered unaltered, unaltered.held⟩
  | some jib =>
      refine ⟨(sound.unaltered unaltered).intact, ?_⟩
      rintro _ _ ⟨rfl, rfl⟩
      refine ⟨(sound.unaltered unaltered).intact, ?_⟩
      intro _ unprotected scripted
      have unaltered := unaltered.trans (Scripted.unaltered scripted)
      exact ⟨sound.unaltered unaltered, unaltered.held⟩

/-- Between operations everything is sound. -/
theorem satisfies_operation {D : Type} (jib : JibFields) (operation : BodyOperation D)
    (sound : state.Sound) (enabled : operation.Enabled state) :
    (operation.program jib).Satisfies effect AllIntact
      (fun reply after => (operation.finish reply after).Sound) state := by
  cases operation with
  | drop function => exact sound.erase function
  | deallocate function =>
      obtain ⟨isHeld, notCustom, _⟩ := enabled
      refine Satisfies.bind
        ((satisfies_deinit sound (sound.held function isHeld notCustom)).mono ?_)
      intro _ after ⟨soundAfter, _⟩
      exact soundAfter.erase function
  | perform operation =>
      by_cases isNew : ∃ name body, operation = .newFunction name body
      · obtain ⟨name, body, rfl⟩ := isNew
        exact satisfies_newFunction jib name sound
      · have notNew : ∀ name body, operation ≠ .newFunction name body :=
          fun name body same => isNew ⟨name, body, same⟩
        have passes : Passes jib.context (fun _ => True)
            (fun object => state.privateOf object = none)
            (fun reply : Reply D => reply.Found fun _ => True) (operation.program jib) :=
          PublicOperation.passes (fun _ _ => trivial) (fun _ _ => trivial) notNew
        apply (satisfies_of_passes sound passes).mono
        rintro reply after ⟨found, unaltered⟩
        have given := (sound.unaltered unaltered).give
          (fun function isGiven => (found function isGiven).1)
        cases operation with
        | newFunction name body => exact (notNew name body rfl).elim
        | _ => exact given

theorem contract_bodyMachine {D : Type} (jib : JibFields) :
    (bodyMachine (D := D) jib).Contract AllIntact BodyState.Sound
      (fun operation reply after => (operation.finish reply after).Sound) where
  operations := fun operation _ => satisfies_operation jib operation
  finish := fun _ _ _ sound => sound

theorem sound_initial : BodyState.initial.Sound where
  intact := by simp [BodyState.initial]
  known := by simp [BodyState.initial]
  retained := by simp [BodyState.initial]
  held := by simp [BodyState.initial]

/-- In every run, whatever the scripts that an engine call runs have done so
far, calling a function that was made runs its own live body exactly when
reading its `__jib_block` gives the object that was stored there. -/
theorem runsOwnBody_iff {D : Type} {jib : JibFields}
    {config : Machine.Config interface (BodyOperation D) (Reply D) BodyState}
    (reaches : (bodyMachine jib).Reaches .initial config)
    {operation : BodyOperation D} {command : Command}
    {next : Answer command → Operation (Reply D)}
    (issues : config.running = some (operation, .call command next))
    {during : BodyState} (scripted : Scripted config.state during)
    {creation : Creation} (created : creation ∈ config.state.created) :
    RunsOwnBody jib.context creation during ↔
      during.block creation.function = some creation.blockObject := by
  have intact : creation.Intact during :=
    (reaches.needs (contract_bodyMachine jib) sound_initial issues creation
      created).unaltered scripted.unaltered
  constructor
  · intro runs
    have found := runs.2 (during.block creation.function) during
      ⟨fun _ => rfl, Scripted.refl during⟩
    cases block : during.block creation.function with
    | none =>
        rw [block] at found
        cases found.1
    | some object =>
        rw [block] at found
        have isOwn := found.2 (during.privateOf object) during ⟨rfl, rfl⟩
        exact congrArg some ((intact.privateOf object).mp isOwn.1)
  · intro block
    refine ⟨trivial, ?_⟩
    rintro value after ⟨isBlock, scripted⟩
    obtain rfl : value = some creation.blockObject := (isBlock rfl).trans block
    refine ⟨trivial, ?_⟩
    rintro data _ ⟨rfl, rfl⟩
    have intact := intact.unaltered scripted.unaltered
    exact ⟨(intact.privateOf _).mpr rfl, intact.live⟩

end Jib.JSC
