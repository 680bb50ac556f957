import Jib.CycleCollection
import Jib.QuickJSPublicOperations
import Mathlib.Data.List.Perm.Basic

/-!
# Reference counts over the life of a `Jib`

The heap of a runtime beside the owners of its references.  The engine accounts
for what it gives and takes and for the references that its own objects have,
whatever scripts do to them; the Swift side has references in its fields, in
its functions and in flight.
-/

namespace Jib.QuickJS

open CommandProgram Program ResourceLedgers

/-- The heap of a runtime.  `objects` is `gc_obj_list` and `roots` are the
references of the runtime itself, those of the pending exception and of waiting
jobs. -/
structure Heap where
  refCount : Resource → Int
  roots : References
  objects : List Resource
  children : Resource → List Resource

namespace Heap

/-- What `JS_RunGC` works on. -/
def graph (heap : Heap) : CycleCollection.Graph Resource :=
  ⟨heap.objects, heap.children, heap.refCount⟩

/-- The references that the engine itself has. -/
def edges (heap : Heap) (resource : Resource) : Nat :=
  heap.roots resource + heap.graph.internal resource

/-- The references that are left for others. -/
def external (heap : Heap) (resource : Resource) : Int :=
  heap.refCount resource - heap.edges resource

/-- `JS_FreeRuntime`: the runtime gives up its own references, then it collects
cycles. -/
def Collected (before after : Heap) : Prop :=
  ∃ cleared : Heap, (∀ resource, cleared.external resource = before.external resource) ∧
    cleared.roots = 0 ∧ after.objects = cleared.graph.collect

end Heap

/-- A `Jib` is created, used and deallocated. -/
inductive Phase
  | fresh
  | running
  | gone
  deriving DecidableEq

/-- A runtime, the `Jib` that owns it, and the functions that the program
holds.  `fields` are the references that the `Jib` has besides its functions.
`made`, `registered` and `abandoned` count what the program has done: functions
that it made, values that it set globals to, and functions looked up and then
deallocated. -/
structure World where
  heap : Heap
  phase : Phase
  flight : References
  fields : References
  customFunctions : List JibFunction
  held : List JibFunction
  made : References
  registered : References
  abandoned : References

namespace World

/-- The `JibFunction` objects that exist. -/
def functions (world : World) : List JibFunction :=
  world.customFunctions ++
    world.held.filter fun function => function ∉ world.customFunctions

/-- The live owners of a resource: the engine and its objects, the code that
runs, the fields of the `Jib`, and functions. -/
def owners (world : World) (resource : Resource) : Nat :=
  world.heap.edges resource + world.flight resource + world.fields resource +
    functionReferences world.functions resource

/-- Every count is at least the number of owners. -/
def Covered (world : World) : Prop :=
  ∀ resource, (world.owners resource : Int) ≤ world.heap.refCount resource

/-- Nothing is owned from outside the heap, and the collection in
`JS_FreeRuntime` empties the list of objects. -/
def LeaksNothing (world : World) : Prop :=
  (∀ resource, world.heap.refCount resource = world.heap.edges resource) ∧
    ∀ after, world.heap.Collected after → after.objects = []

/-- A runtime and its context have been created. -/
structure Initial (world : World) : Prop where
  phase : world.phase = .fresh
  flight : world.flight = 0
  fields : world.fields = single .context
  customFunctions : world.customFunctions = []
  held : world.held = []
  made : world.made = 0
  registered : world.registered = 0
  abandoned : world.abandoned = 0
  heap : ∀ resource, world.heap.external resource = single .context resource

/-- The functions that a command adds to `customFunctions`. -/
def appended : Command → List JibFunction
  | .appendCustomFunction function => [function]
  | _ => []

/-- The engine gives its global object. -/
def AnswersGlobal (global : JSValue) : (command : Command) → Answer command → Prop
  | .jsGetGlobalObject, answer => answer = global
  | _, _ => True

/-- A command with its answer.  Scripts run by the engine may rearrange the
heap at will; what they get and give is accounted for. -/
structure Moves (global : JSValue) (command : Command) (before : World)
    (answer : Answer command) (after : World) : Prop where
  answers : Answers command answer
  global : AnswersGlobal global command answer
  heap : ∀ resource, after.heap.external resource =
    before.heap.external resource + given command answer resource - taken command resource
  collected : command = .jsFreeRuntime → before.heap.Collected after.heap
  flight : after.flight =
    before.flight + given command answer - (taken command + kept command)
  customFunctions : after.customFunctions = before.customFunctions ++ appended command
  phase : after.phase = before.phase
  fields : after.fields = before.fields
  held : after.held = before.held
  made : after.made = before.made
  registered : after.registered = before.registered
  abandoned : after.abandoned = before.abandoned

def effect (global : JSValue) : Effect interface World :=
  Moves global

end World

variable {D : Type}

/-- What the program does.  `drop` gives up a function object that it holds. -/
inductive JibOperation (D : Type)
  | create (printBody : JibFunctionBody)
  | perform (operation : PublicOperation D)
  | drop (function : JibFunction)
  | deallocate (customFunctions : List JibFunction)

/-- The functions among the arguments of a call. -/
def argumentFunctions (arguments : List (Option JibUnknown)) : List JibFunction :=
  arguments.filterMap fun
    | some (.jibFunction function) => some function
    | _ => none

/-- The functions that an operation is given. -/
def PublicOperation.uses : PublicOperation D → List JibFunction
  | .setGlobalFunction _ function => [function]
  | .call _ function arguments => function :: argumentFunctions arguments
  | .callNone function arguments => function :: argumentFunctions arguments
  | _ => []

namespace JibOperation

def program (global : JSValue) : JibOperation D → Operation (Reply D)
  | .create printBody => do
      let _ ← initJib printBody
      return .nothing
  | .perform operation => operation.program global
  | .drop _ => return .nothing
  | .deallocate customFunctions => do
      deinitJib customFunctions
      return .nothing

/-- The program passes functions that it holds, and sets globals to those and
to `jib.global`. -/
def Enabled (global : JSValue) : JibOperation D → World → Prop
  | .create _, world => world.phase = .fresh
  | .perform operation, world =>
      world.phase = .running ∧ (∀ function ∈ operation.uses, function ∈ world.held) ∧
        ∀ name value, operation = .setGlobal name value → value = global
  | .drop function, world => function ∈ world.held
  | .deallocate customFunctions, world =>
      world.phase = .running ∧ customFunctions = world.customFunctions

/-- Setting a global passes a reference to the value; deallocating a `Jib`
takes up what it owns. -/
def enter : JibOperation D → World → World
  | .perform operation, world =>
      { world with
        flight := world.flight + valueReferences operation.registers
        registered := world.registered + valueReferences operation.registers }
  | .deallocate _, world =>
      { world with
        phase := .gone
        flight := world.flight + world.fields + functionReferences world.customFunctions
        fields := 0
        customFunctions := [] }
  | _, world => world

/-- A function that was made leaves one reference to set a global with, one
that was looked up owns what is left. -/
def finish : JibOperation D → Reply D → World → World
  | .create _, _, world => { world with phase := .running }
  | .perform operation, reply, world =>
      { world with
        flight := world.flight - functionReferences reply.functions
        held := reply.functions ++ world.held
        made :=
          match operation with
          | .newFunction _ _ => world.made + functionReferences reply.functions
          | _ => world.made }
  | .drop function, _, world =>
      { world with
        held := world.held.erase function
        abandoned :=
          if function.bodyPtr = none then
            world.abandoned + function.functionValueRef.references
          else world.abandoned }
  | .deallocate _, _, world => world

end JibOperation

/-- The runs of one `Jib` and the program that uses it. -/
def jibMachine (global : JSValue) :
    Machine interface (JibOperation D) (Reply D) World where
  program := JibOperation.program global
  effect := World.effect global
  Enabled := JibOperation.Enabled global
  enter := JibOperation.enter
  finish := JibOperation.finish

/-! ## What holds in every run -/

namespace World

/-- The references of functions that were looked up. -/
def found (world : World) : References :=
  functionReferences (world.held.filter fun function => function.bodyPtr = none)

/-- Functions with a body that only the program holds. -/
def stranded (world : World) : References :=
  functionReferences (world.held.filter fun function =>
    function.bodyPtr ≠ none ∧ function ∉ world.customFunctions)

/-- Where the references from outside the heap are. -/
def Balanced (world : World) : Prop :=
  ∀ resource, world.heap.external resource + world.registered resource =
    world.flight resource + world.fields resource +
      functionReferences world.customFunctions resource + world.found resource +
      world.made resource + world.abandoned resource

/-- What is true all the time. -/
structure Sound (world : World) : Prop where
  balanced : world.Balanced
  bodies : ∀ function ∈ world.customFunctions, function.bodyPtr ≠ none

/-- What is true between operations. -/
structure Idle (world : World) : Prop extends Sound world where
  flight : world.flight = 0
  fields : world.phase ≠ .gone → world.fields = single .context
  kept : world.phase ≠ .gone → ∀ function ∈ world.held, function.bodyPtr ≠ none →
    function ∈ world.customFunctions
  gone : world.phase = .gone → world.fields = 0 ∧ world.customFunctions = []

/-- Values have been registered only as often as there were references to
spare. -/
def Enough (world : World) : Prop :=
  ∀ resource, world.registered resource + world.stranded resource ≤
    world.made resource + world.abandoned resource

end World

theorem functionReferences_append (first second : List JibFunction) :
    functionReferences (first ++ second) =
      functionReferences first + functionReferences second := by
  simp [functionReferences, valueReferences]

theorem functionReferences_filter (functions : List JibFunction)
    (first second : JibFunction → Prop) [DecidablePred first] [DecidablePred second]
    (disjoint : ∀ function, first function → ¬second function) :
    functionReferences (functions.filter fun function => first function ∨ second function) =
      functionReferences (functions.filter fun function => first function) +
        functionReferences (functions.filter fun function => second function) := by
  induction functions with
  | nil => rfl
  | cons function rest ih =>
      simp only [Bool.decide_or] at ih ⊢
      by_cases isFirst : first function
      · have notSecond := disjoint function isFirst
        simp [isFirst, notSecond, ih, add_assoc]
      · by_cases isSecond : second function
        · simp [isFirst, isSecond, ih, add_left_comm]
        · simp [isFirst, isSecond, ih]

namespace World

variable {world : World}

theorem Sound.functionReferences (sound : world.Sound) :
    functionReferences world.functions =
      functionReferences world.customFunctions + world.found + world.stranded := by
  have split : (world.held.filter fun function => function ∉ world.customFunctions) =
      world.held.filter fun function => function.bodyPtr = none ∨
        (function.bodyPtr ≠ none ∧ function ∉ world.customFunctions) := by
    refine List.filter_congr fun function _ => ?_
    have body := sound.bodies function
    by_cases noBody : function.bodyPtr = none <;> simp [noBody] at body ⊢
    exact body
  rw [functions, functionReferences_append, split, functionReferences_filter _ _ _
    (fun function noBody other => other.1 noBody), ← add_assoc]
  rfl

/-- The counts cover the owners exactly as long as there was enough to
register. -/
theorem Sound.covered_iff (sound : world.Sound) : world.Covered ↔ world.Enough := by
  refine forall_congr' fun resource => ?_
  have balanced := sound.balanced resource
  have functions := congrFun sound.functionReferences resource
  simp only [Pi.add_apply] at functions
  simp only [Heap.external] at balanced
  simp only [owners]
  omega

/-- What a command finds: everything sound and what it takes in flight.  When
the runtime is freed, nothing but the functions of the program is left. -/
structure Accounted (command : Command) (world : World) : Prop extends Sound world where
  ready : taken command + kept command ≤ world.flight
  left : command = .jsFreeRuntime →
    world.flight = 0 ∧ world.fields = 0 ∧ world.customFunctions = []

/-- While an operation runs only the heap, the flight and the functions that
are kept change. -/
structure During (start world : World) : Prop extends Sound world where
  kept : start.customFunctions ⊆ world.customFunctions
  phase : world.phase = start.phase
  fields : world.fields = start.fields
  held : world.held = start.held
  made : world.made = start.made
  registered : world.registered = start.registered
  abandoned : world.abandoned = start.abandoned

theorem During.refl (sound : world.Sound) : During world world where
  toSound := sound
  kept := List.Subset.refl _
  phase := rfl
  fields := rfl
  held := rfl
  made := rfl
  registered := rfl
  abandoned := rfl

variable {global : JSValue} {start before after : World} {command : Command}
  {answer : Answer command}

theorem functionReferences_of_moves (moves : Moves global command before answer after) :
    QuickJS.functionReferences after.customFunctions =
      QuickJS.functionReferences before.customFunctions + kept command := by
  rw [moves.customFunctions]
  cases command <;>
    simp [functionReferences_append, QuickJS.kept, appended]

/-- One command. -/
theorem During.step (during : During start before)
    (ready : taken command + QuickJS.kept command ≤ before.flight)
    (ordinary : ∀ function, command = .appendCustomFunction function →
      function.bodyPtr ≠ none)
    (moves : Moves global command before answer after) : During start after where
  balanced := by
    intro resource
    have balanced := during.balanced resource
    have heap := moves.heap resource
    have flight := congrFun moves.flight resource
    have enough := ready resource
    have functions := congrFun (functionReferences_of_moves moves) resource
    simp only [Pi.add_apply, Pi.sub_apply] at flight enough functions
    simp only [found, moves.fields, moves.held, moves.made, moves.registered,
      moves.abandoned] at balanced ⊢
    omega
  bodies := by
    intro function member
    rw [moves.customFunctions] at member
    rcases List.mem_append.mp member with wasKept | isNew
    · exact during.bodies function wasKept
    · cases command with
      | appendCustomFunction new =>
          obtain rfl := List.mem_singleton.mp isNew
          exact ordinary function rfl
      | _ => cases isNew
  kept := by
    rw [moves.customFunctions]
    exact List.Subset.trans during.kept (List.subset_append_left _ _)
  phase := moves.phase.trans during.phase
  fields := moves.fields.trans during.fields
  held := moves.held.trans during.held
  made := moves.made.trans during.made
  registered := moves.registered.trans during.registered
  abandoned := moves.abandoned.trans during.abandoned

theorem satisfies_of_balances {α : Type} {held : References}
    {post : α → References → Prop} {program : Operation α}
    (balances : Balances held post program) (sound : start.Sound)
    (inHand : start.flight = held) :
    program.Satisfies (effect global) Accounted
      (fun value after => post value after.flight ∧ During start after) start := by
  have begun := balances 0
  rw [zero_add] at begun
  refine (Satisfies.simulate
    (fun flight world => world.flight = flight ∧ During start world) begun ?_
    ⟨inHand, .refl sound⟩).mono ?_
  · rintro command _ world ⟨rfl, during⟩ ⟨ordinary, ready⟩
    refine ⟨⟨during.toSound, ready, ?_⟩, ?_⟩
    · rintro rfl
      exact ordinary.elim
    · intro answer after moves
      refine ⟨_, ⟨moves.answers, rfl⟩, moves.flight, during.step ready ?_ moves⟩
      rintro function rfl
      exact ordinary
  · rintro value after ⟨flight, ⟨left, holds, rfl⟩, isFlight, during⟩
    rw [zero_add] at isFlight
    exact ⟨isFlight ▸ holds, during⟩

theorem functions_of_moves (moves : Moves global command before answer after)
    (noFunctions : before.customFunctions = [])
    (keepsNone : ∀ function, command ≠ .appendCustomFunction function) :
    after.customFunctions = [] := by
  rw [moves.customFunctions, noFunctions]
  cases command <;> first | rfl | exact (keepsNone _ rfl).elim

/-- In the middle of a deallocation, with the functions of `rest` to go. -/
structure Returning (start : World) (rest : List JibFunction) (world : World) : Prop
    extends During start world where
  noFunctions : world.customFunctions = []
  flight : world.flight = QuickJS.functionReferences rest + single .context

/-- Deallocating gives back what the `Jib` has. -/
theorem satisfies_deinitJib {customFunctions : List JibFunction} (sound : start.Sound)
    (inHand : start.flight = QuickJS.functionReferences customFunctions + single .context)
    (noFields : start.fields = 0) (noFunctions : start.customFunctions = []) :
    (deinitJib customFunctions).Satisfies (effect global) Accounted
      (fun _ after => During start after ∧ after.flight = 0 ∧
        after.customFunctions = []) start := by
  have loop : (forEach (fun function : JibFunction => jsFreeValue function.functionValueRef)
      customFunctions).Satisfies (effect global) Accounted (fun _ => Returning start [])
        start := by
    refine satisfies_forEach (Returning start) ?_ customFunctions
      (⟨.refl sound, noFunctions, inHand⟩ : Returning start customFunctions start)
    rintro function rest world ⟨during, noFunctions, flight⟩
    have split : world.flight = QuickJS.functionReferences rest + single .context +
        (taken (.jsFreeValue function.functionValueRef) +
          QuickJS.kept (.jsFreeValue function.functionValueRef)) := by
      rw [flight, functionReferences_cons, add_assoc, add_comm]
      rfl
    refine ⟨⟨during.toSound, share_le split, by simp⟩, ?_⟩
    intro _ after moves
    exact ⟨during.step (share_le split) (by simp) moves,
      functions_of_moves moves noFunctions (by simp), moves.flight.trans (add_sub_share split)⟩
  refine Satisfies.locked (Satisfies.bind (loop.mono ?_))
  rintro _ world ⟨during, noFunctions, flight⟩
  have split : world.flight =
      0 + (taken .jsFreeContext + QuickJS.kept .jsFreeContext) := flight
  refine ⟨⟨during.toSound, share_le split, by simp⟩, ?_⟩
  intro _ freed moves
  have during := during.step (share_le split) (by simp) moves
  have noFunctions := functions_of_moves moves noFunctions (by simp)
  have flight : freed.flight = 0 := moves.flight.trans (add_sub_share split)
  have split : freed.flight =
      0 + (taken .jsFreeRuntime + QuickJS.kept .jsFreeRuntime) := flight
  refine ⟨⟨during.toSound, share_le split,
    fun _ => ⟨flight, during.fields.trans noFields, noFunctions⟩⟩, ?_⟩
  intro _ after moves
  exact ⟨during.step (share_le split) (by simp) moves,
    moves.flight.trans (add_sub_share split), functions_of_moves moves noFunctions (by simp)⟩

/-- A function that is made is kept. -/
theorem satisfies_newFunction {D : Type} (name : HalfHitch) (body : JibFunctionBody) :
    ((PublicOperation.newFunction name body : PublicOperation D).program global).Satisfies
      (effect global) (fun _ _ => True)
      (fun reply after => ∀ function ∈ reply.functions,
        function ∈ after.customFunctions) start := by
  refine ⟨trivial, fun bodyPtr _ _ => ?_⟩
  refine ⟨trivial, fun functionValue _ _ => ?_⟩
  refine ⟨trivial, fun functionValueRef _ _ => ?_⟩
  refine ⟨trivial, fun _ after moves => ?_⟩
  intro function isMade
  obtain rfl := List.mem_singleton.mp isMade
  rw [moves.customFunctions]
  exact List.mem_append_right _ (List.mem_singleton_self _)

/-! ## The operations -/

variable {D : Type}

/-- Between operations, as far as the code that runs tells. -/
theorem idle_finish_create {body : JibFunctionBody} {reply : Reply D} (idle : start.Idle)
    (fresh : start.phase = .fresh) (during : During start after) (flight : after.flight = 0) :
    ((JibOperation.create body).finish reply after).Idle where
  balanced := during.balanced
  bodies := during.bodies
  flight := flight
  fields := fun _ => during.fields.trans (idle.fields (by simp [fresh]))
  kept := by
    intro _ function isHeld hasBody
    change function ∈ after.held at isHeld
    rw [during.held] at isHeld
    exact during.kept (idle.kept (by simp [fresh]) function isHeld hasBody)
  gone := by simp [JibOperation.finish]

theorem sound_enter_perform (operation : PublicOperation D) (idle : world.Idle) :
    ((JibOperation.perform operation).enter world).Sound where
  balanced := by
    intro resource
    have balanced := idle.balanced resource
    simp only [JibOperation.enter, Pi.add_apply, found] at balanced ⊢
    omega
  bodies := idle.bodies

theorem found_give_none (world : World) {functions : List JibFunction}
    (noBody : ∀ function ∈ functions, function.bodyPtr = none) :
    QuickJS.functionReferences ((functions ++ world.held).filter fun function =>
      function.bodyPtr = none) = QuickJS.functionReferences functions + world.found := by
  rw [List.filter_append, functionReferences_append,
    List.filter_eq_self.mpr (by simpa using noBody)]
  rfl

theorem found_give_some (world : World) {functions : List JibFunction}
    (hasBody : ∀ function ∈ functions, function.bodyPtr ≠ none) :
    QuickJS.functionReferences ((functions ++ world.held).filter fun function =>
      function.bodyPtr = none) = world.found := by
  rw [List.filter_append, functionReferences_append,
    List.filter_eq_nil_iff.mpr (by simpa using hasBody)]
  exact zero_add _

/-- The program gets functions that were looked up. -/
theorem idle_finish_lookup {operation : PublicOperation D} {reply : Reply D}
    (notNew : ∀ name body, operation ≠ .newFunction name body) (idle : start.Idle)
    (running : start.phase = .running)
    (during : During ((JibOperation.perform operation).enter start) after)
    (obtained : Obtained reply.functions after.flight) :
    ((JibOperation.perform operation).finish reply after).Idle where
  balanced := by
    intro resource
    have balanced := during.balanced resource
    have flight := congrFun obtained.2 resource
    have found := congrFun (found_give_none after obtained.1) resource
    have made : ((JibOperation.perform operation).finish reply after).made = after.made := by
      cases operation with
      | newFunction name body => exact (notNew name body rfl).elim
      | _ => rfl
    rw [made]
    simp only [JibOperation.finish, World.found, Pi.add_apply, Pi.sub_apply] at found balanced ⊢
    omega
  bodies := during.bodies
  flight := by
    funext resource
    have flight := congrFun obtained.2 resource
    change after.flight resource - _ = 0
    omega
  fields := fun _ => during.fields.trans (idle.fields (by simp [running]))
  kept := by
    intro _ function isHeld hasBody
    rcases List.mem_append.mp isHeld with isGiven | wasHeld
    · exact (hasBody (obtained.1 function isGiven)).elim
    · rw [during.held] at wasHeld
      exact during.kept (idle.kept (by simp [running]) function wasHeld hasBody)
  gone := by
    intro gone
    have phase : after.phase = .running := during.phase.trans running
    exact absurd (phase.symm.trans gone) (by decide)

/-- The program gets a function that was made. -/
theorem idle_finish_newFunction {name : HalfHitch} {body : JibFunctionBody}
    {reply : Reply D} (idle : start.Idle) (running : start.phase = .running)
    (during : During ((JibOperation.perform (.newFunction name body : PublicOperation D)).enter
      start) after)
    (hasBody : ∀ function ∈ reply.functions, function.bodyPtr ≠ none)
    (inHand : after.flight = QuickJS.functionReferences reply.functions)
    (isKept : ∀ function ∈ reply.functions, function ∈ after.customFunctions) :
    ((JibOperation.perform (.newFunction name body)).finish reply after).Idle where
  balanced := by
    intro resource
    have balanced := during.balanced resource
    have flight := congrFun inHand resource
    have found := congrFun (found_give_some after hasBody) resource
    simp only [JibOperation.finish, World.found, Pi.add_apply, Pi.sub_apply] at found balanced ⊢
    omega
  bodies := during.bodies
  flight := by
    funext resource
    have flight := congrFun inHand resource
    change after.flight resource - _ = 0
    omega
  fields := fun _ => during.fields.trans (idle.fields (by simp [running]))
  kept := by
    intro _ function isHeld _
    rcases List.mem_append.mp isHeld with isGiven | wasHeld
    · exact isKept function isGiven
    · rw [during.held] at wasHeld
      exact during.kept (idle.kept (by simp [running]) function wasHeld ‹_›)
  gone := by
    intro gone
    have phase : after.phase = .running := during.phase.trans running
    exact absurd (phase.symm.trans gone) (by decide)

end World

theorem functionReferences_perm {first second : List JibFunction}
    (permuted : first.Perm second) :
    functionReferences first = functionReferences second :=
  ((permuted.map _).map _).sum_eq

/-- Taking a function out of a list takes its reference out of what passes a
test. -/
theorem functionReferences_filter_erase {functions : List JibFunction}
    {function : JibFunction} (member : function ∈ functions)
    (test : JibFunction → Bool) :
    functionReferences (functions.filter test) =
      (if test function then function.functionValueRef.references else 0) +
        functionReferences ((functions.erase function).filter test) := by
  rw [functionReferences_perm ((List.perm_cons_erase member).filter test), List.filter_cons]
  split
  · rfl
  · exact (zero_add _).symm

namespace World

variable {world : World} {D : Type}

/-- The program gives up a function. -/
theorem idle_finish_drop {function : JibFunction} {reply : Reply D} (idle : world.Idle)
    (isHeld : function ∈ world.held) :
    ((JibOperation.drop function).finish reply world).Idle where
  balanced := by
    intro resource
    have balanced := idle.balanced resource
    have found := congrFun (functionReferences_filter_erase isHeld
      fun function => function.bodyPtr = none) resource
    simp only [JibOperation.finish, World.found] at balanced ⊢
    by_cases noBody : function.bodyPtr = none <;>
      simp only [noBody, decide_true, decide_false, if_true, if_false, Pi.add_apply,
        Pi.zero_apply, Bool.false_eq_true] at found ⊢ <;>
      omega
  bodies := idle.bodies
  flight := idle.flight
  fields := idle.fields
  kept := fun running other isHeld hasBody =>
    idle.kept running other (List.mem_of_mem_erase isHeld) hasBody
  gone := idle.gone

theorem sound_enter_deallocate (customFunctions : List JibFunction) (idle : world.Idle) :
    ((JibOperation.deallocate customFunctions : JibOperation D).enter world).Sound where
  balanced := by
    intro resource
    have balanced := idle.balanced resource
    simp only [JibOperation.enter, found, Pi.add_apply, Pi.zero_apply,
      functionReferences_nil] at balanced ⊢
    omega
  bodies := by simp [JibOperation.enter]

variable {global : JSValue} {operation : JibOperation D}

/-- An operation accounts for everything and leaves everything in order. -/
theorem satisfies_operation (idle : world.Idle) (enabled : operation.Enabled global world) :
    (operation.program global).Satisfies (effect global) Accounted
      (fun reply after => after.Sound ∧ after.phase = (operation.enter world).phase ∧
        (operation.finish reply after).Idle) (operation.enter world) := by
  cases operation with
  | create printBody =>
      refine Satisfies.bind ((satisfies_of_balances (balances_initJib printBody)
        idle.toSound idle.flight).mono ?_)
      rintro _ after ⟨flight, during⟩
      exact ⟨during.toSound, during.phase, idle_finish_create idle enabled during flight⟩
  | perform operation =>
      obtain ⟨running, _, _⟩ := enabled
      have sound := sound_enter_perform operation idle
      have inHand : ((JibOperation.perform operation).enter world).flight =
          valueReferences operation.registers := by
        change world.flight + _ = _
        rw [idle.flight, zero_add]
      by_cases isNew : ∃ name body, operation = .newFunction name body
      · obtain ⟨name, body, rfl⟩ := isNew
        have balances := PublicOperation.balances_newFunction (D := D) global name body
        apply ((satisfies_of_balances balances sound inHand).and
          (satisfies_newFunction name body)).mono
        rintro reply after ⟨⟨⟨hasBody, flight⟩, during⟩, isKept⟩
        exact ⟨during.toSound, during.phase,
          idle_finish_newFunction idle running during hasBody flight isKept⟩
      · have notNew : ∀ name body, operation ≠ .newFunction name body :=
          fun name body same => isNew ⟨name, body, same⟩
        apply (satisfies_of_balances (operation.balances global notNew) sound inHand).mono
        rintro reply after ⟨obtained, during⟩
        exact ⟨during.toSound, during.phase,
          idle_finish_lookup notNew idle running during obtained⟩
  | drop function => exact ⟨idle.toSound, rfl, idle_finish_drop idle enabled⟩
  | deallocate customFunctions =>
      obtain ⟨running, rfl⟩ := enabled
      have sound := sound_enter_deallocate (D := D) world.customFunctions idle
      have inHand : ((JibOperation.deallocate world.customFunctions : JibOperation D).enter
          world).flight = QuickJS.functionReferences world.customFunctions +
            single .context := by
        change world.flight + world.fields + _ = _
        rw [idle.flight, idle.fields (by simp [running]), zero_add, add_comm]
      refine Satisfies.bind ((satisfies_deinitJib sound inHand rfl rfl).mono ?_)
      rintro _ after ⟨during, flight, noFunctions⟩
      refine ⟨during.toSound, during.phase, during.toSound, flight, ?_, ?_, ?_⟩
      · exact fun running => (running during.phase).elim
      · exact fun running => (running during.phase).elim
      · exact fun _ => ⟨during.fields, noFunctions⟩

theorem idle_of_initial (initial : world.Initial) : world.Idle where
  balanced := by
    intro resource
    simp [initial.heap, initial.flight, initial.fields, initial.customFunctions, found,
      initial.held, initial.made, initial.registered, initial.abandoned]
  bodies := by simp [initial.customFunctions]
  flight := initial.flight
  fields := fun _ => initial.fields
  kept := by simp [initial.held]
  gone := by simp [initial.phase]

end World

end Jib.QuickJS
