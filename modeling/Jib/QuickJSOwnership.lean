import Jib.QuickJSCounts

/-!
# Over-released and leaked references

Setting a global passes on a reference that the Swift code owns only if it is
the one that was left when the function was made, or one that was left when a
function that had been looked up was deallocated.  Counting both tells in which
runs a count falls below the number of owners, and which runs leave references
behind.
-/

namespace Jib.QuickJS

open CommandProgram Program

namespace World

variable {world : World} {D : Type} {global : JSValue} {operation : JibOperation D}

/-! ## Over-released references -/

/-- There is a reference to spare for every value that is set, and for every
function that the program still holds when its `Jib` goes. -/
def Affordable : JibOperation D → World → Prop
  | .perform operation, world =>
      ∀ resource, 0 < valueReferences operation.registers resource →
        world.registered resource + valueReferences operation.registers resource ≤
          world.made resource + world.abandoned resource
  | .deallocate _, world =>
      ∀ resource, 0 < functionReferences (world.held.filter fun function =>
          function.bodyPtr ≠ none) resource →
        world.registered resource + functionReferences (world.held.filter fun function =>
          function.bodyPtr ≠ none) resource ≤
            world.made resource + world.abandoned resource
  | _, _ => True

/-- A value that is freed has not been freed already. -/
def FreesLive (config : Machine.Config interface (JibOperation D) (Reply D) World) : Prop :=
  ∀ operation value next, config.running = some (operation, .call (.jsFreeValue value) next) →
    ∀ pointer, value.pointer? = some pointer →
      0 < config.state.heap.refCount (.value pointer)

theorem stranded_of_idle (idle : world.Idle) (present : world.phase ≠ .gone) :
    world.stranded = 0 := by
  have none : (world.held.filter fun function =>
      function.bodyPtr ≠ none ∧ function ∉ world.customFunctions) = [] := by
    simpa using idle.kept present
  rw [stranded, none]
  rfl

theorem functionReferences_sublist {first second : List JibFunction}
    (sublist : first.Sublist second) (resource : Resource) :
    QuickJS.functionReferences first resource ≤
      QuickJS.functionReferences second resource := by
  induction sublist with
  | slnil => exact le_refl _
  | cons function _ ih =>
      simp only [functionReferences_cons, Pi.add_apply]
      omega
  | cons_cons function _ ih =>
      simp only [functionReferences_cons, Pi.add_apply]
      omega

theorem Enough.enter (enough : world.Enough) (idle : world.Idle)
    (enabled : operation.Enabled global world) (affordable : Affordable operation world) :
    (operation.enter world).Enough := by
  intro resource
  have enough := enough resource
  cases operation with
  | create printBody => exact enough
  | drop function => exact enough
  | perform operation =>
      have affordable := affordable resource
      have stranded := congrFun (stranded_of_idle idle (by simp [enabled.1])) resource
      change world.registered resource + valueReferences operation.registers resource +
        world.stranded resource ≤ world.made resource + world.abandoned resource
      simp only [Pi.zero_apply] at stranded
      omega
  | deallocate customFunctions =>
      have affordable := affordable resource
      have all : ((JibOperation.deallocate customFunctions : JibOperation D).enter
          world).stranded = QuickJS.functionReferences (world.held.filter fun function =>
            function.bodyPtr ≠ none) := by
        simp [JibOperation.enter, World.stranded]
      rw [all]
      change world.registered resource + _ ≤ world.made resource + world.abandoned resource
      omega

/-- Functions that are kept are not stranded. -/
theorem Enough.moves {command : Command} {before after : World} {answer : Answer command}
    (enough : before.Enough) (moves : effect global command before answer after) :
    after.Enough := by
  intro resource
  have enough := enough resource
  have fewer : after.stranded resource ≤ before.stranded resource := by
    unfold stranded
    rw [moves.held]
    refine functionReferences_sublist (List.monotone_filter_right _ ?_) resource
    intro function isStranded
    simp only [decide_eq_true_eq, moves.customFunctions, List.mem_append, not_or] at isStranded ⊢
    exact ⟨isStranded.1, isStranded.2.1⟩
  rw [moves.registered, moves.made, moves.abandoned]
  omega

theorem Enough.finish {reply : Reply D} (enough : world.Enough)
    (idle : (operation.finish reply world).Idle)
    (present : ∀ performed, operation = .perform performed → world.phase ≠ .gone) :
    (operation.finish reply world).Enough := by
  intro resource
  have enough := enough resource
  cases operation with
  | create printBody => exact enough
  | deallocate customFunctions => exact enough
  | perform operation =>
      have stranded := congrFun (stranded_of_idle idle (present operation rfl)) resource
      rw [stranded]
      have made : world.made resource ≤
          ((JibOperation.perform operation).finish reply world).made resource := by
        cases operation <;> simp [JibOperation.finish]
      change world.registered resource + 0 ≤ _ + world.abandoned resource
      omega
  | drop function =>
      have fewer : ((JibOperation.drop function).finish reply world).stranded resource ≤
          world.stranded resource :=
        functionReferences_sublist (List.erase_sublist.filter _) resource
      have more : world.abandoned resource ≤
          ((JibOperation.drop function).finish reply world).abandoned resource := by
        simp only [JibOperation.finish]
        split
        · exact Nat.le_add_right _ _
        · exact le_refl _
      change world.registered resource + _ ≤ world.made resource + _
      omega

variable {config : Machine.Config interface (JibOperation D) (Reply D) World} {start : World}

theorem contract_jibMachine (global : JSValue) :
    (jibMachine (D := D) global).Contract Accounted Idle
      (fun operation reply after => after.Sound ∧ (operation.finish reply after).Idle) where
  operations := fun _ _ idle enabled =>
    (satisfies_operation idle enabled).mono fun _ _ holds => ⟨holds.1, holds.2.2⟩
  finish := fun _ _ _ holds => holds.2

/-- In a run whose operations are all affordable there is always enough to
register. -/
theorem contract_affordable (global : JSValue) :
    ((jibMachine (D := D) global).restrict Affordable).Contract
      (fun command world => Accounted command world ∧ world.Enough)
      (fun world => world.Idle ∧ world.Enough)
      (fun operation reply after => after.Sound ∧ after.Enough ∧
        (operation.finish reply after).Idle ∧ (operation.finish reply after).Enough) where
  operations := by
    rintro operation world ⟨idle, enough⟩ ⟨enabled, affordable⟩
    have entered := enough.enter idle enabled affordable
    apply ((satisfies_operation idle enabled).keep
      (fun _ _ _ _ enough moves => enough.moves moves) entered).mono
    rintro reply after ⟨⟨sound, phase, idle⟩, enough⟩
    refine ⟨sound, enough, idle, enough.finish idle ?_⟩
    rintro performed rfl
    rw [phase]
    change world.phase ≠ .gone
    simp [enabled.1]
  finish := fun _ _ _ holds => holds.2.2

theorem enough_of_initial (initial : world.Initial) : world.Enough := by
  intro resource
  simp [initial.registered, initial.held, stranded]

/-- In every run the counts cover the owners exactly where no value has been
registered more often than there were references to spare. -/
theorem covered_iff_enough (initial : start.Initial)
    (reaches : (jibMachine global).Reaches start config) :
    config.state.Covered ↔ config.state.Enough := by
  have sound := reaches.always Sound (contract_jibMachine global)
    (idle_of_initial initial) (fun _ idle => idle.toSound)
    (fun _ _ accounted => accounted.toSound) (fun _ _ _ holds => holds.1)
  exact sound.covered_iff

/-! ## Runs -/

/-- The answers of an engine whose scripts do nothing.  The global object is at
1, and functions are made at the addresses that follow. -/
def storingAnswer (world : World) : (command : Command) → Answer command
  | .jsGetGlobalObject => .object 1
  | .jsNewCFunctionMagic .. => .object (world.customFunctions.length + 2)
  | command => constantAnswer .undefined command

/-- The values that the engine keeps. -/
def stored : Command → References
  | .jsSetProperty _ _ value => value.references
  | _ => 0

/-- The heap of an engine that keeps the values that globals are set to. -/
def storingHeap (command : Command) (answer : Answer command) (heap : Heap) : Heap :=
  match command with
  | .jsFreeRuntime =>
      let cleared : Heap := ⟨fun resource => heap.refCount resource - heap.roots resource, 0,
        heap.objects, heap.children⟩
      ⟨heap.external, 0, cleared.graph.collect, fun _ => []⟩
  | command =>
      { heap with
        refCount := fun resource => heap.refCount resource + given command answer resource -
          taken command resource + stored command resource
        roots := heap.roots + stored command }

def storing : Handler interface World :=
  fun command world =>
    let answer := storingAnswer world command
    (answer,
      { world with
        heap := storingHeap command answer world.heap
        flight := world.flight + given command answer - (taken command + kept command)
        customFunctions := world.customFunctions ++ appended command })

theorem storingHeap_of_ne {command : Command} (answer : Answer command) (heap : Heap)
    (stays : command ≠ .jsFreeRuntime) :
    storingHeap command answer heap =
      { heap with
        refCount := fun resource => heap.refCount resource + given command answer resource -
          taken command resource + stored command resource
        roots := heap.roots + stored command } := by
  cases command <;> first | rfl | exact (stays rfl).elim

theorem external_storingHeap (command : Command) (answer : Answer command) (heap : Heap)
    (resource : Resource) :
    (storingHeap command answer heap).external resource =
      heap.external resource + given command answer resource - taken command resource := by
  by_cases isFreed : command = .jsFreeRuntime
  · subst command
    have noChildren : CycleCollection.references (fun _ : Resource => [])
        (storingHeap .jsFreeRuntime answer heap).objects resource = 0 := by
      simp [CycleCollection.references]
    have noEdges : (storingHeap .jsFreeRuntime answer heap).edges resource = 0 := by
      change 0 + CycleCollection.references _ _ _ = 0
      rw [zero_add]
      exact noChildren
    rw [Heap.external, noEdges]
    change heap.external resource - 0 = heap.external resource + 0 - 0
    omega
  · rw [storingHeap_of_ne answer heap isFreed]
    simp only [Heap.external, Heap.edges, Pi.add_apply]
    change _ - ((_ + heap.graph.internal resource : Nat) : Int) = _
    omega

theorem storing_follows (command : Command) (world : World) :
    effect (.object 1) command world (storing command world).1 (storing command world).2 where
  answers := by cases command <;> first | rfl | trivial
  global := by cases command <;> first | rfl | trivial
  heap := external_storingHeap command _ world.heap
  collected := by
    rintro rfl
    refine ⟨⟨fun resource => world.heap.refCount resource - world.heap.roots resource, 0,
      world.heap.objects, world.heap.children⟩, ?_, rfl, rfl⟩
    intro resource
    simp only [Heap.external, Heap.edges, Pi.zero_apply]
    change _ - ((0 + world.heap.graph.internal resource : Nat) : Int) = _
    omega
  flight := rfl
  customFunctions := rfl
  phase := rfl
  fields := rfl
  held := rfl
  made := rfl
  registered := rfl
  abandoned := rfl

def newRuntime : World where
  heap := ⟨fun resource => single .context resource, 0, [.context], fun _ => []⟩
  phase := .fresh
  flight := 0
  fields := single .context
  customFunctions := []
  held := []
  made := 0
  registered := 0
  abandoned := 0

theorem initial_newRuntime : newRuntime.Initial where
  phase := rfl
  flight := rfl
  fields := rfl
  customFunctions := rfl
  held := rfl
  made := rfl
  registered := rfl
  abandoned := rfl
  heap := by
    intro resource
    simp [Heap.external, Heap.edges, newRuntime, Heap.graph, CycleCollection.Graph.internal,
      CycleCollection.references]

/-- The runs of one program. -/
abbrev sampleMachine : Machine interface (JibOperation Unit) (Reply Unit) World :=
  jibMachine (.object 1)

/-- What the operations make of a new runtime. -/
@[irreducible]
def afterwards (operations : List (JibOperation Unit)) : World :=
  operations.foldl (fun world operation => sampleMachine.perform storing operation world)
    newRuntime

theorem afterwards_append (operations : List (JibOperation Unit))
    (operation : JibOperation Unit) :
    afterwards (operations ++ [operation]) =
      sampleMachine.perform storing operation (afterwards operations) := by
  simp only [afterwards, List.foldl_append, List.foldl_cons, List.foldl_nil]

theorem reaches_afterwards {Condition : JibOperation Unit → World → Prop}
    {operations : List (JibOperation Unit)}
    (reaches : (sampleMachine.restrict Condition).Reaches newRuntime
      ⟨afterwards operations, none⟩)
    (operation : JibOperation Unit)
    (enabled : operation.Enabled (.object 1) (afterwards operations))
    (condition : Condition operation (afterwards operations)) :
    (sampleMachine.restrict Condition).Reaches newRuntime
      ⟨afterwards (operations ++ [operation]), none⟩ := by
  rw [afterwards_append]
  exact reaches.perform storing_follows operation ⟨enabled, condition⟩

/-- `f`. -/
def functionName : HalfHitch := .ofBytes "f".toUTF8.toList

/-- `g`. -/
def otherName : HalfHitch := .ofBytes "g".toUTF8.toList

/-- The first function that the program makes. -/
def firstFunction : JibFunction := ⟨.object 3, some 0⟩

/-- A function is made. -/
def making : List (JibOperation Unit) :=
  [] ++ [.create 0] ++ [.perform (.newFunction functionName 1)]

/-- A function is made and a global is set to it. -/
def registering : List (JibOperation Unit) :=
  making ++ [.perform (.setGlobalFunction functionName firstFunction)]

/-- Two globals are set to the function. -/
def registeringTwice : List (JibOperation Unit) :=
  registering ++ [.perform (.setGlobalFunction otherName firstFunction)]

theorem reaches_making :
    (sampleMachine.restrict Affordable).Reaches newRuntime ⟨afterwards making, none⟩ := by
  have begun : (sampleMachine.restrict Affordable).Reaches newRuntime
      ⟨afterwards [], none⟩ := by
    rw [afterwards]
    exact .refl
  have fresh : (afterwards []).phase = .fresh := by decide +kernel
  have created := reaches_afterwards begun (.create 0) fresh trivial
  exact reaches_afterwards created (.perform (.newFunction functionName 1))
    ⟨by decide +kernel, by simp [PublicOperation.uses], by simp⟩
    (fun _ positive => absurd positive (Nat.lt_irrefl 0))

theorem reaches_registering :
    (sampleMachine.restrict Affordable).Reaches newRuntime
      ⟨afterwards registering, none⟩ := by
  refine reaches_afterwards reaches_making
    (.perform (.setGlobalFunction functionName firstFunction))
    ⟨by decide +kernel, by simp only [PublicOperation.uses]; decide +kernel, by simp⟩ ?_
  intro resource positive
  by_cases isFunction : resource = .value 3
  · subst resource
    decide +kernel
  · have none : valueReferences [firstFunction.functionValueRef] resource = 0 := by
      simp [firstFunction, JSValue.references, JSValue.pointer?, single, isFunction]
    exact absurd positive (by simp only [PublicOperation.registers, none]; decide)

/-! ## Covered counts -/

/-- In every run whose operations are all affordable the counts cover the
owners all the time, and nothing is freed that has been freed already. -/
theorem counts_cover_owners (initial : start.Initial)
    (reaches : ((jibMachine global).restrict Affordable).Reaches start config) :
    config.state.Covered ∧ FreesLive config := by
  have begun : start.Idle ∧ start.Enough :=
    ⟨idle_of_initial initial, enough_of_initial initial⟩
  have holds := reaches.always (fun world => world.Sound ∧ world.Enough)
    (contract_affordable global) begun
    (fun _ idle => ⟨idle.1.toSound, idle.2⟩)
    (fun _ _ accounted => ⟨accounted.1.toSound, accounted.2⟩)
    (fun _ _ _ ends => ⟨ends.1, ends.2.1⟩)
  have covered := (covered_iff_enough initial reaches.of_restrict).mpr holds.2
  refine ⟨covered, ?_⟩
  intro operation value next issues pointer isPointer
  have accounted := (reaches.needs (contract_affordable global) begun issues).1
  have inFlight : 1 ≤ config.state.flight (.value pointer) := by
    have ready := accounted.ready (.value pointer)
    simpa [taken, kept, JSValue.references, isPointer, single] using ready
  have covers := covered (.value pointer)
  simp only [owners] at covers
  omega

theorem counts_cover_owners_registering :
    (afterwards registering).Covered ∧
      FreesLive (⟨afterwards registering, none⟩ :
        Machine.Config interface (JibOperation Unit) (Reply Unit) World) :=
  counts_cover_owners initial_newRuntime reaches_registering

/-- Setting two globals to one function gives away a reference too many. -/
theorem not_covered_registeringTwice :
    newRuntime.Initial ∧
      sampleMachine.Reaches newRuntime ⟨afterwards registeringTwice, none⟩ ∧
      ¬(afterwards registeringTwice).Covered := by
  refine ⟨initial_newRuntime, ?_, ?_⟩
  · rw [registeringTwice, afterwards_append]
    exact reaches_registering.of_restrict.perform storing_follows
      (.perform (.setGlobalFunction otherName firstFunction))
      ⟨by decide +kernel, by simp only [PublicOperation.uses]; decide +kernel, by simp⟩
  · intro covered
    exact absurd (covered (.value 3)) (by decide +kernel)

/-! ## Leaked references -/

/-- A heap without external references is emptied. -/
theorem collected_nil {before after : Heap}
    (noneOutside : ∀ resource, before.refCount resource = before.edges resource)
    (collected : before.Collected after) : after.objects = [] := by
  obtain ⟨cleared, same, noRoots, objects⟩ := collected
  rw [objects, CycleCollection.Graph.collect_eq_nil_iff]
  intro resource _
  have same := same resource
  have none := noneOutside resource
  simp only [Heap.external, Heap.edges, noRoots, Pi.zero_apply] at same none
  change cleared.refCount resource = cleared.graph.internal resource
  omega

/-- What the program has done does not change while an operation runs. -/
theorem run_storing {α : Type} (program : Operation α) (world : World) :
    (program.run storing world).2.made = world.made ∧
      (program.run storing world).2.registered = world.registered ∧
      (program.run storing world).2.abandoned = world.abandoned := by
  induction program generalizing world with
  | done value => exact ⟨rfl, rfl, rfl⟩
  | acquire next ih => exact ih world
  | release next ih => exact ih world
  | call command next ih => exact ih _ _

/-- A deallocation up to `JS_FreeRuntime`. -/
def freeing (customFunctions : List JibFunction) : Operation Unit :=
  .acquire do
    forEach (fun function => jsFreeValue function.functionValueRef) customFunctions
    jsFreeContext

theorem program_deallocate (global : JSValue) (customFunctions : List JibFunction) :
    (JibOperation.deallocate customFunctions : JibOperation D).program global =
      freeing customFunctions >>= fun _ => .call .jsFreeRuntime fun _ =>
        .release (.done .nothing) := by
  simp [JibOperation.program, deinitJib, locked, freeing]

/-- Where a deallocation frees the runtime. -/
def atFreeRuntime (world : World) : World :=
  ((freeing world.customFunctions).run storing
    ((JibOperation.deallocate world.customFunctions : JibOperation Unit).enter world)).2

theorem reaches_atFreeRuntime {world : World}
    (reaches : sampleMachine.Reaches newRuntime ⟨world, none⟩)
    (running : world.phase = .running) :
    sampleMachine.Reaches newRuntime ⟨atFreeRuntime world,
      some (.deallocate world.customFunctions, .call .jsFreeRuntime fun _ =>
        .release (.done .nothing))⟩ := by
  have started : sampleMachine.Step ⟨world, none⟩
      ⟨(JibOperation.deallocate world.customFunctions : JibOperation Unit).enter world,
        some (.deallocate world.customFunctions,
          freeing world.customFunctions >>= fun _ => .call .jsFreeRuntime fun _ =>
            .release (.done .nothing))⟩ := by
    rw [← program_deallocate (.object 1)]
    exact @Machine.Step.start _ _ _ _ sampleMachine _ (.deallocate world.customFunctions)
      ⟨running, rfl⟩
  exact (Relation.ReflTransGen.tail reaches started).trans
    (Machine.steps_of_yields (yields_run storing_follows _ _))

/-- A function is made and given up. -/
def makingOnly : List (JibOperation Unit) :=
  making ++ [.drop firstFunction]

/-- A function is made, a global is set to it, and it is given up. -/
def makingAndRegistering : List (JibOperation Unit) :=
  registering ++ [.drop firstFunction]

/-- In every run, when the runtime of a `Jib` is freed and the program holds no
function any more, nothing leaks exactly when each value has been set as a global
as often as it was made as a function or looked up as one and given up.  So the
global object has not been set again. -/
theorem leaksNothing_iff (initial : start.Initial)
    (reaches : (jibMachine global).Reaches start config)
    {next : Answer .jsFreeRuntime → Operation (Reply D)}
    (issues : config.running = some (operation, .call .jsFreeRuntime next))
    (noneHeld : config.state.held = []) :
    config.state.LeaksNothing ↔ ∀ resource,
      config.state.registered resource =
        config.state.made resource + config.state.abandoned resource := by
  have accounted := reaches.needs (contract_jibMachine global) (idle_of_initial initial) issues
  obtain ⟨noFlight, noFields, noFunctions⟩ := accounted.left rfl
  have outside : ∀ resource,
      config.state.heap.refCount resource = config.state.heap.edges resource ↔
        config.state.registered resource =
          config.state.made resource + config.state.abandoned resource := by
    intro resource
    have balanced := accounted.balanced resource
    simp only [noFlight, noFields, noFunctions, found, noneHeld, List.filter_nil,
      functionReferences_nil, Pi.zero_apply, Heap.external] at balanced
    omega
  constructor
  · intro leaksNothing resource
    exact (outside resource).mp (leaksNothing.1 resource)
  · intro allUsed
    have noneOutside := fun resource => (outside resource).mpr (allUsed resource)
    exact ⟨noneOutside, fun _ collected => collected_nil noneOutside collected⟩

theorem leaksNothing_makingAndRegistering :
    (atFreeRuntime (afterwards makingAndRegistering)).LeaksNothing := by
  have reaches : sampleMachine.Reaches newRuntime ⟨afterwards makingAndRegistering, none⟩ := by
    rw [makingAndRegistering, afterwards_append]
    have isHeld : firstFunction ∈ (afterwards registering).held := by decide +kernel
    exact reaches_registering.of_restrict.perform storing_follows (.drop firstFunction) isHeld
  refine (leaksNothing_iff initial_newRuntime (reaches_atFreeRuntime reaches (by decide +kernel))
    rfl (by decide +kernel)).mpr fun resource => ?_
  have isMade : ((sampleMachine.program (.perform (.newFunction functionName 1))).run storing
      (sampleMachine.enter (.perform (.newFunction functionName 1))
        (afterwards ([] ++ [.create 0])))).1.functions = [firstFunction] := by
    decide +kernel
  change (atFreeRuntime _).registered resource =
    (atFreeRuntime _).made resource + (atFreeRuntime _).abandoned resource
  simp only [jibMachine, JibOperation.enter, afterwards_append, Machine.perform,
    JibOperation.finish, run_storing, atFreeRuntime, makingAndRegistering, registering,
    making] at isMade ⊢
  rw [isMade]
  simp [afterwards, newRuntime, firstFunction, PublicOperation.registers]

/-- A function that no global is set to is never freed. -/
theorem not_leaksNothing_makingOnly :
    newRuntime.Initial ∧
      sampleMachine.Reaches newRuntime ⟨atFreeRuntime (afterwards makingOnly),
        some (.deallocate (afterwards makingOnly).customFunctions,
          .call .jsFreeRuntime fun _ => .release (.done .nothing))⟩ ∧
      (atFreeRuntime (afterwards makingOnly)).held = [] ∧
      ¬(atFreeRuntime (afterwards makingOnly)).LeaksNothing := by
  refine ⟨initial_newRuntime, ?_, by decide +kernel, ?_⟩
  · have reaches : sampleMachine.Reaches newRuntime ⟨afterwards makingOnly, none⟩ := by
      rw [makingOnly, afterwards_append]
      have isHeld : firstFunction ∈ (afterwards making).held := by decide +kernel
      exact reaches_making.of_restrict.perform storing_follows (.drop firstFunction) isHeld
    exact reaches_atFreeRuntime reaches (by decide +kernel)
  · intro leaksNothing
    exact absurd (leaksNothing.1 (.value 3)) (by decide +kernel)

end World

end Jib.QuickJS
