import Jib.JSCPublicOperations
import Mathlib.Logic.Function.Basic
import Mathlib.Logic.Relation

/-!
# Releasing a JavaScriptCore context while it is in use

Threads run public operations, drop functions and release one `Jib`.  The
engine may answer in any way; what matters is which calls are given the
context after it has been released.  Reading `released`, lock actions and
engine calls are steps of their own, and the body of `release()` is one step.
Cloning is left out: `Jib(clone:)` reads the context of its source without the
lock and without looking at `released`, and what it does belongs to the clone.
-/

namespace Jib.JSC

open CommandProgram Program

/-- What is known of the context of a `Jib`.  `deallocating` is set once the
last strong reference is gone, `misused` by a call that is given the context
after its release. -/
structure Lifetime where
  released : Bool
  deallocating : Bool
  contextReleases : Nat
  groupReleases : Nat
  misused : Bool

namespace Lifetime

def fresh : Lifetime := ⟨false, false, 0, 0, false⟩

/-- The effect of a command. -/
def after (jib : JibFields) (lifetime : Lifetime) (command : Command) : Lifetime where
  released := lifetime.released || command = .setReleased
  deallocating := lifetime.deallocating
  contextReleases := lifetime.contextReleases +
    if command = .jsGlobalContextRelease jib.context then 1 else 0
  groupReleases := lifetime.groupReleases +
    if command = .jsContextGroupRelease jib.group then 1 else 0
  misused := lifetime.misused ||
    (command.context? = some jib.context && 0 < lifetime.contextReleases)

/-- The answers a command can have.  A weak reference to a `Jib` that is being
deallocated is `nil`. -/
def Answers (jib : JibFields) (lifetime : Lifetime) :
    (command : Command) → Answer command → Prop
  | .readReleased, released => released = lifetime.released
  | .loadJib _, found => found = if lifetime.deallocating then none else some jib
  | _, _ => True

end Lifetime

/-- `program`, run without interruption, may return `value` and leave `last`. -/
def Executes {α : Type} (jib : JibFields) :
    Operation α → Lifetime → α → Lifetime → Prop
  | .done result, first, value, last => value = result ∧ last = first
  | .acquire _, _, _, _ => False
  | .release _, _, _, _ => False
  | .call command next, first, value, last =>
      ∃ answer, first.Answers jib command answer ∧
        Executes jib (next answer) (first.after jib command) value last

/-- How far `release()` or `deinit` has come. -/
inductive Phase
  | beforeLock
  | beforeBody
  | beforeUnlock

/-- What a thread is doing.  `strong` says whether it holds a strong reference
to the `Jib`. -/
inductive Task (D : Type)
  | idle
  | running (strong : Bool) (rest : Operation (Reply D))
  | releasing (phase : Phase)
  | deallocating (phase : Phase)

/-- The task keeps the `Jib` from being deallocated. -/
def Task.strong {D : Type} : Task D → Bool
  | .idle => false
  | .running strong _ => strong
  | .releasing _ => true
  | .deallocating _ => false

/-- The `Jib`, its lock and all threads; no thread clones it.  `deallocated` is set
by the body of `deinit`. -/
structure World (Thread D : Type) where
  lifetime : Lifetime
  holder : Option Thread
  task : Thread → Task D
  deallocated : Bool

namespace World

variable {Thread D : Type} [DecidableEq Thread]

def initial : World Thread D := ⟨.fresh, none, fun _ => .idle, false⟩

def become (world : World Thread D) (thread : Thread) (task : Task D) :
    World Thread D :=
  { world with task := Function.update world.task thread task }

/-- Loading the weak reference with success makes it strong. -/
def strongAfter (lifetime : Lifetime) (strong : Bool) : Command → Bool
  | .loadJib _ => strong || !lifetime.deallocating
  | _ => strong

/-- One step of `thread`.  `Permitted` restricts the bodies of `release()`. -/
inductive Step (jib : JibFields)
    (Permitted : Thread → World Thread D → Prop) (thread : Thread)
    (world : World Thread D) : World Thread D → Prop
  | start (operation : PublicOperation D) (idle : world.task thread = .idle)
      (alive : world.lifetime.deallocating = false) :
      Step jib Permitted thread world
        (world.become thread (.running true (operation.program jib)))
  | drop (function : JibFunction) (idle : world.task thread = .idle) :
      Step jib Permitted thread world
        (world.become thread
          (.running false (function.deinit >>= fun _ => .done .nothing)))
  | call {strong command next} (answer : Answer command)
      (atCall : world.task thread = .running strong (.call command next))
      (answers : world.lifetime.Answers jib command answer) :
      Step jib Permitted thread world
        { world.become thread
            (.running (strongAfter world.lifetime strong command) (next answer)) with
          lifetime := world.lifetime.after jib command }
  | acquire {strong next}
      (atLock : world.task thread = .running strong (.acquire next))
      (free : world.holder = none) :
      Step jib Permitted thread world
        { world.become thread (.running strong next) with holder := some thread }
  | unlock {strong next}
      (atUnlock : world.task thread = .running strong (.release next))
      (held : world.holder = some thread) :
      Step jib Permitted thread world
        { world.become thread (.running strong next) with holder := none }
  | finish {strong reply} (atEnd : world.task thread = .running strong (.done reply)) :
      Step jib Permitted thread world (world.become thread .idle)
  | beginRelease (idle : world.task thread = .idle)
      (alive : world.lifetime.deallocating = false) :
      Step jib Permitted thread world (world.become thread (.releasing .beforeLock))
  | lockRelease (waiting : world.task thread = .releasing .beforeLock)
      (free : world.holder = none) :
      Step jib Permitted thread world
        { world.become thread (.releasing .beforeBody) with holder := some thread }
  | releaseBody (dropped : List JibFunction) (droppedPrint : Option JibFunction)
      (last : Lifetime) (locked : world.task thread = .releasing .beforeBody)
      (permitted : Permitted thread world)
      (executed : Executes jib (JSC.releaseBody jib dropped droppedPrint)
        world.lifetime () last) :
      Step jib Permitted thread world
        { world.become thread (.releasing .beforeUnlock) with lifetime := last }
  | unlockRelease (done : world.task thread = .releasing .beforeUnlock)
      (held : world.holder = some thread) :
      Step jib Permitted thread world
        { world.become thread .idle with holder := none }
  | beginDeinit (idle : world.task thread = .idle)
      (alive : world.lifetime.deallocating = false)
      (unreferenced : ∀ other, (world.task other).strong = false) :
      Step jib Permitted thread world
        { world.become thread (.deallocating .beforeLock) with
          lifetime := { world.lifetime with deallocating := true } }
  | lockDeinit (waiting : world.task thread = .deallocating .beforeLock)
      (free : world.holder = none) :
      Step jib Permitted thread world
        { world.become thread (.deallocating .beforeBody) with holder := some thread }
  | deinitBody (dropped : List JibFunction) (droppedPrint : Option JibFunction)
      (last : Lifetime) (locked : world.task thread = .deallocating .beforeBody)
      (executed : Executes jib (JSC.releaseBody jib dropped droppedPrint)
        world.lifetime () last) :
      Step jib Permitted thread world
        { world.become thread (.deallocating .beforeUnlock) with
          lifetime := last
          deallocated := true }
  | unlockDeinit (done : world.task thread = .deallocating .beforeUnlock)
      (held : world.holder = some thread) :
      Step jib Permitted thread world
        { world.become thread .idle with holder := none }

/-- Reachable from a new `Jib`. -/
def Reaches (jib : JibFields) (Permitted : Thread → World Thread D → Prop) :
    World Thread D → Prop :=
  Relation.ReflTransGen (fun before after => ∃ thread, Step jib Permitted thread before after)
    initial

end World

/-! ## What is safe after a release -/

/-- The answers a command can have once the context has been released. -/
def AnswersReleased : (command : Command) → Answer command → Prop
  | .readReleased, released => released = true
  | _, _ => True

/-- What is left of an operation gives the context to no call any more, if the
context has been released. -/
def Safe {α : Type} (jib : JibFields) : Operation α → Prop
  | .done _ => True
  | .acquire next => Safe jib next
  | .release next => Safe jib next
  | .call command next =>
      command.context? ≠ some jib.context ∧
        ∀ answer, AnswersReleased command answer → Safe jib (next answer)

/-- `release()` may execute its body when every other thread is safe. -/
def OthersSafe {Thread D : Type} (jib : JibFields) (thread : Thread)
    (world : World Thread D) : Prop :=
  ∀ other ≠ thread, ∀ strong rest,
    world.task other = .running strong rest → Safe jib rest

/-- The answers that do not give a strong reference. -/
def Unloaded : (command : Command) → Answer command → Prop
  | .loadJib _, found => found = none
  | _, _ => True

/-- Before it has a strong reference, a task gives the context to no call and
does not look at `released`. -/
def Weak {α : Type} (jib : JibFields) : Operation α → Prop
  | .done _ => True
  | .acquire _ => False
  | .release _ => False
  | .call command next =>
      command.context? ≠ some jib.context ∧ command ≠ .readReleased ∧
        ∀ answer, Unloaded command answer → Weak jib (next answer)

variable {D : Type} (jib : JibFields)

/-- An operation that starts on a released `Jib` returns at once. -/
theorem Shaped.safe {α : Type} {program : Operation α} (shaped : Shaped program) :
    Safe jib program := by
  obtain ⟨_, absent, body, rest, _, _, ⟨value, restAbsent⟩, rfl⟩ := shaped
  refine ⟨by simp [Command.context?], ?_⟩
  intro released isReleased
  obtain rfl : released = true := isReleased
  change Safe jib (rest absent)
  rw [restAbsent]
  trivial

theorem Shaped.issues {α : Type} {program : Operation α} (shaped : Shaped program) :
    program.Issues fun command : Command => command.endsLifetime = false := by
  obtain ⟨_, absent, body, rest, free, restFree, _, rfl⟩ := shaped
  refine Issues.bind ⟨rfl, ?_⟩ fun value => (restFree value).issues
  intro released
  change Issues _ (if released = true then _ else locked body)
  split
  · trivial
  · exact free.issues_locked

/-- `JibFunction.deinit` looks at `released` last. -/
theorem safe_deinit (function : JibFunction) :
    Safe jib (function.deinit >>= fun _ => (.done .nothing : Operation (Reply D))) := by
  refine ⟨by simp [Command.context?], fun _ _ => ⟨by simp [Command.context?], ?_⟩⟩
  intro _ _
  refine ⟨by simp [Command.context?], ?_⟩
  intro found _
  cases found with
  | none => trivial
  | some jib =>
      refine ⟨by simp [Command.context?], ?_⟩
      intro released isReleased
      obtain rfl : released = true := isReleased
      trivial

theorem weak_deinit (function : JibFunction) :
    Weak jib (function.deinit >>= fun _ => (.done .nothing : Operation (Reply D))) := by
  refine ⟨by simp [Command.context?], by simp, fun _ _ =>
    ⟨by simp [Command.context?], by simp, fun _ _ =>
      ⟨by simp [Command.context?], by simp, ?_⟩⟩⟩
  intro found isNone
  obtain rfl : found = none := isNone
  trivial

theorem issues_deinit (function : JibFunction) :
    (function.deinit >>= fun _ => (.done .nothing : Operation (Reply D))).Issues
      fun command : Command => command.endsLifetime = false :=
  (lockFree_deinit function).issues.bind fun _ => trivial

/-! ## Bodies -/

namespace Lifetime

/-- Context and group have been released once if `released` is set and not at
all otherwise, and the context has not been misused. -/
structure Consistent (lifetime : Lifetime) : Prop where
  contextReleases : lifetime.contextReleases = if lifetime.released then 1 else 0
  groupReleases : lifetime.groupReleases = if lifetime.released then 1 else 0
  unmisused : lifetime.misused = false

variable {jib} {lifetime : Lifetime}

theorem consistent_fresh : fresh.Consistent := ⟨rfl, rfl, rfl⟩

/-- Commands of operations change nothing, unless they are given the context
after its release. -/
theorem after_eq {command : Command} (ordinary : command.endsLifetime = false)
    (harmless : command.context? ≠ some jib.context ∨ lifetime.contextReleases = 0) :
    lifetime.after jib command = lifetime := by
  have notSet : command ≠ .setReleased := by
    rintro rfl
    cases ordinary
  have notContext : command ≠ .jsGlobalContextRelease jib.context := by
    rintro rfl
    cases ordinary
  have notGroup : command ≠ .jsContextGroupRelease jib.group := by
    rintro rfl
    cases ordinary
  rcases harmless with different | unreleased
  · simp [after, notSet, notContext, notGroup, different, -Command.context?]
  · obtain ⟨released, deallocating, contextReleases, groupReleases, misused⟩ := lifetime
    obtain rfl : contextReleases = 0 := unreleased
    simp [after, notSet, notContext, notGroup]

theorem Consistent.after_eq (consistent : lifetime.Consistent) {command : Command}
    (ordinary : command.endsLifetime = false)
    (harmless : lifetime.released = true → command.context? ≠ some jib.context) :
    lifetime.after jib command = lifetime := by
  apply Lifetime.after_eq ordinary
  cases released : lifetime.released with
  | true => exact Or.inl (harmless released)
  | false =>
      have unreleased := consistent.contextReleases
      rw [released] at unreleased
      exact Or.inr unreleased

end Lifetime

variable {jib}

theorem executes_bind {α β : Type} (program : Operation α)
    (continuation : α → Operation β) {first last : Lifetime} {value : β} :
    Executes jib (program >>= continuation) first value last ↔
      ∃ result middle, Executes jib program first result middle ∧
        Executes jib (continuation result) middle value last := by
  induction program generalizing first with
  | done result =>
      constructor
      · intro executed
        exact ⟨result, first, ⟨rfl, rfl⟩, executed⟩
      · rintro ⟨_, _, ⟨rfl, rfl⟩, executed⟩
        exact executed
  | acquire next =>
      constructor
      · exact False.elim
      · rintro ⟨_, _, impossible, _⟩
        exact impossible
  | release next =>
      constructor
      · exact False.elim
      · rintro ⟨_, _, impossible, _⟩
        exact impossible
  | call command next ih =>
      constructor
      · rintro ⟨answer, answers, executed⟩
        obtain ⟨result, middle, executedFirst, executedRest⟩ := (ih answer).mp executed
        exact ⟨result, middle, ⟨answer, answers, executedFirst⟩, executedRest⟩
      · rintro ⟨result, middle, ⟨answer, answers, executedFirst⟩, executedRest⟩
        exact ⟨answer, answers, (ih answer).mpr ⟨result, middle, executedFirst, executedRest⟩⟩

/-- `JibFunction.deinit` inside a body reads `released` and unprotects under
the same circumstances, so nothing changes. -/
theorem executes_deinit {function : JibFunction} {first last : Lifetime}
    (consistent : first.Consistent)
    (executed : Executes jib function.deinit first () last) : last = first := by
  obtain ⟨_, _, _, _, found, _, executed⟩ := executed
  rw [consistent.after_eq rfl (by simp [Command.context?]),
    consistent.after_eq rfl (by simp [Command.context?]),
    consistent.after_eq rfl (by simp [Command.context?])] at executed
  cases found with
  | none => exact executed.2
  | some found =>
      obtain ⟨released, isReleased, executed⟩ := executed
      rw [consistent.after_eq rfl (by simp [Command.context?])] at executed
      obtain rfl : released = first.released := isReleased
      cases isReleased : first.released with
      | true =>
          rw [isReleased] at executed
          exact executed.2
      | false =>
          rw [isReleased] at executed
          obtain ⟨_, _, executed⟩ := executed
          rw [consistent.after_eq rfl (by simp [isReleased])] at executed
          exact executed.2

theorem executes_deinits {functions : List JibFunction} {first last : Lifetime}
    (consistent : first.Consistent)
    (executed : Executes jib (forEach JibFunction.deinit functions) first () last) :
    last = first := by
  induction functions generalizing first with
  | nil => exact executed.2
  | cons function rest ih =>
      obtain ⟨_, middle, executedFirst, executedRest⟩ :=
        (executes_bind function.deinit _).mp executed
      obtain rfl := executes_deinit consistent executedFirst
      exact ih consistent executedRest

/-- The body releases context and group if they have not been released. -/
theorem executes_releaseBody {dropped : List JibFunction}
    {droppedPrint : Option JibFunction} {first last : Lifetime}
    (consistent : first.Consistent)
    (executed : Executes jib (releaseBody jib dropped droppedPrint) first () last) :
    last.Consistent ∧ last.released = true ∧ last.deallocating = first.deallocating := by
  simp only [releaseBody, clearCustomFunctions, setPrintFn, call_bind, done_bind,
    Executes, executes_bind] at executed
  obtain ⟨_, _, _, dropping, executedDropped, _, _, _, printing, executedPrint, executed⟩ :=
    executed
  rw [consistent.after_eq rfl (by simp [Command.context?])] at executedDropped
  obtain rfl := executes_deinits consistent executedDropped
  rw [consistent.after_eq rfl (by simp [Command.context?])] at executedPrint
  obtain rfl := executes_deinits consistent executedPrint
  simp only [releaseContext, readReleased, call_bind, done_bind, Executes] at executed
  obtain ⟨released, isReleased, executed⟩ := executed
  rw [consistent.after_eq rfl (by simp [Command.context?])] at executed
  obtain rfl : released = printing.released := isReleased
  cases isReleased : printing.released with
  | true =>
      rw [isReleased] at executed
      obtain rfl : last = printing := executed.2
      exact ⟨consistent, isReleased, rfl⟩
  | false =>
      rw [isReleased] at executed
      obtain ⟨_, _, _, _, _, _, _, rfl⟩ := executed
      obtain ⟨contexts, groups, unmisused⟩ := consistent
      rw [isReleased] at contexts groups
      refine ⟨⟨?_, ?_, ?_⟩, ?_, ?_⟩ <;>
        simp [Lifetime.after, Command.context?, contexts, groups, unmisused]

/-! ## The invariant -/

namespace World

variable {Thread : Type}

/-- The invariant of all runs in which bodies of `release()` are permitted only
when the other threads are safe. -/
structure Sound (jib : JibFields) (world : World Thread D) : Prop where
  consistent : world.lifetime.Consistent
  ordinary : ∀ thread strong rest, world.task thread = .running strong rest →
    rest.Issues fun command : Command => command.endsLifetime = false
  safe : world.lifetime.released = true →
    ∀ thread strong rest, world.task thread = .running strong rest → Safe jib rest
  weak : ∀ thread rest, world.task thread = .running false rest →
    Safe jib rest ∧ Weak jib rest
  alone : world.lifetime.deallocating = true →
    ∀ thread, (world.task thread).strong = false
  deallocating : ∀ thread phase, world.task thread = .deallocating phase →
    world.lifetime.deallocating = true
  deallocated : world.deallocated = true → world.lifetime.released = true

variable {world : World Thread D} {thread : Thread}

theorem sound_initial : Sound jib (initial : World Thread D) where
  consistent := Lifetime.consistent_fresh
  ordinary := by simp [initial]
  safe := by simp [initial]
  weak := by simp [initial]
  alone := by simp [initial, Task.strong]
  deallocating := by simp [initial]
  deallocated := by simp [initial]

/-- A command of an operation leaves the lifetime as it is. -/
theorem Sound.after_eq (sound : Sound jib world) {strong : Bool} {command : Command}
    {next : Answer command → Operation (Reply D)}
    (atCall : world.task thread = .running strong (.call command next)) :
    world.lifetime.after jib command = world.lifetime :=
  sound.consistent.after_eq (sound.ordinary thread strong _ atCall).1
    fun released => (sound.safe released thread strong _ atCall).1

variable [DecidableEq Thread]

/-- One thread changes its task. -/
theorem Sound.update (sound : Sound jib world) {after : World Thread D}
    {task : Task D} (afterTask : after.task = Function.update world.task thread task)
    (consistent : after.lifetime.Consistent)
    (others : after.lifetime.released = true →
      world.lifetime.released = true ∨ OthersSafe jib thread world)
    (keeps : world.lifetime.deallocating = true →
      after.lifetime.deallocating = true)
    (alone : after.lifetime.deallocating = true →
      task.strong = false ∧ ∀ other, other ≠ thread → (world.task other).strong = false)
    (deallocating : ∀ phase, task = .deallocating phase →
      after.lifetime.deallocating = true)
    (deallocated : after.deallocated = true → after.lifetime.released = true)
    (running : ∀ strong rest, task = .running strong rest →
      (rest.Issues fun command : Command => command.endsLifetime = false) ∧
        (after.lifetime.released = true → Safe jib rest) ∧
          (strong = false → Safe jib rest ∧ Weak jib rest)) :
    Sound jib after := by
  have own : after.task thread = task := by rw [afterTask, Function.update_self]
  have rest : ∀ other ≠ thread, after.task other = world.task other :=
    fun other different => by rw [afterTask, Function.update_of_ne different]
  refine ⟨consistent, ?_, ?_, ?_, ?_, ?_, deallocated⟩
  · intro other strong program isTask
    by_cases same : other = thread
    · subst other
      exact (running strong program (own.symm.trans isTask)).1
    · exact sound.ordinary other strong program ((rest other same).symm.trans isTask)
  · intro released other strong program isTask
    by_cases same : other = thread
    · subst other
      exact (running strong program (own.symm.trans isTask)).2.1 released
    · have before := (rest other same).symm.trans isTask
      rcases others released with releasedBefore | othersSafe
      · exact sound.safe releasedBefore other strong program before
      · exact othersSafe other same strong program before
  · intro other program isTask
    by_cases same : other = thread
    · subst other
      exact (running false program (own.symm.trans isTask)).2.2 rfl
    · exact sound.weak other program ((rest other same).symm.trans isTask)
  · intro isDeallocating other
    by_cases same : other = thread
    · subst other
      rw [own]
      exact (alone isDeallocating).1
    · rw [rest other same]
      exact (alone isDeallocating).2 other same
  · intro other phase isTask
    by_cases same : other = thread
    · subst other
      exact deallocating phase (own.symm.trans isTask)
    · exact keeps (sound.deallocating other phase ((rest other same).symm.trans isTask))

/-- One thread changes its task and nothing else but the lock. -/
theorem Sound.update_task (sound : Sound jib world) {after : World Thread D}
    {task : Task D} (afterTask : after.task = Function.update world.task thread task)
    (sameLifetime : after.lifetime = world.lifetime)
    (sameDeallocated : after.deallocated = world.deallocated)
    (strong : task.strong = true →
      (world.task thread).strong = true ∨ world.lifetime.deallocating = false)
    (deallocating : ∀ phase, task = .deallocating phase →
      world.lifetime.deallocating = true)
    (running : ∀ strong rest, task = .running strong rest →
      (rest.Issues fun command : Command => command.endsLifetime = false) ∧
        (world.lifetime.released = true → Safe jib rest) ∧
          (strong = false → Safe jib rest ∧ Weak jib rest)) :
    Sound jib after := by
  refine sound.update afterTask ?_ ?_ ?_ ?_ ?_ ?_ ?_
  · rw [sameLifetime]
    exact sound.consistent
  · rw [sameLifetime]
    exact Or.inl
  · rw [sameLifetime]
    exact id
  · rw [sameLifetime]
    intro isDeallocating
    refine ⟨?_, fun other _ => sound.alone isDeallocating other⟩
    rw [Bool.eq_false_iff]
    intro isStrong
    rcases strong isStrong with wasStrong | notDeallocating
    · rw [sound.alone isDeallocating thread] at wasStrong
      cases wasStrong
    · rw [isDeallocating] at notDeallocating
      cases notDeallocating
  · rw [sameLifetime]
    exact deallocating
  · rw [sameLifetime, sameDeallocated]
    exact sound.deallocated
  · rw [sameLifetime]
    exact running

theorem answersReleased_of_answers {lifetime : Lifetime} {command : Command}
    {answer : Answer command} (answers : lifetime.Answers jib command answer)
    (released : lifetime.released = true ∨ command ≠ .readReleased) :
    AnswersReleased command answer := by
  cases command with
  | readReleased =>
      rcases released with released | different
      · exact answers.trans released
      · exact absurd rfl different
  | _ => trivial

/-- A command that leaves a task without a strong reference has not loaded the
weak one. -/
theorem unloaded_of_strongAfter {lifetime : Lifetime} {command : Command}
    {answer : Answer command} (answers : lifetime.Answers jib command answer)
    (stillWeak : strongAfter lifetime false command = false) :
    Unloaded command answer := by
  cases command with
  | loadJib function =>
      have isDeallocating : lifetime.deallocating = true := by
        simpa [strongAfter] using stillWeak
      have isAnswer : answer = if lifetime.deallocating then none else some jib := answers
      rw [isDeallocating] at isAnswer
      exact isAnswer
  | _ => trivial

theorem weak_of_strongAfter {lifetime : Lifetime} {strong : Bool} {command : Command}
    (stillWeak : strongAfter lifetime strong command = false) : strong = false := by
  cases strong with
  | false => rfl
  | true => cases command <;> simp [strongAfter] at stillWeak

theorem Sound.call_step (sound : Sound jib world) {strong : Bool} {command : Command}
    {next : Answer command → Operation (Reply D)} {answer : Answer command}
    (atCall : world.task thread = .running strong (.call command next))
    (answers : world.lifetime.Answers jib command answer) :
    Sound jib { world.become thread
        (.running (strongAfter world.lifetime strong command) (next answer)) with
      lifetime := world.lifetime.after jib command } := by
  refine sound.update_task rfl (sound.after_eq atCall) rfl ?_ ?_ ?_
  · intro isStrong
    cases strong with
    | true => exact Or.inl (by rw [atCall]; rfl)
    | false =>
        right
        cases command <;> simp_all [strongAfter, Task.strong]
  · intro phase isTask
    cases isTask
  · intro _ _ isTask
    cases isTask
    refine ⟨(sound.ordinary thread strong _ atCall).2 answer, ?_, ?_⟩
    · intro released
      exact (sound.safe released thread strong _ atCall).2 answer
        (answersReleased_of_answers answers (Or.inl released))
    · intro stillWeak
      obtain rfl := weak_of_strongAfter stillWeak
      obtain ⟨⟨_, safe⟩, _, notRead, weak⟩ := sound.weak thread _ atCall
      exact ⟨safe answer (answersReleased_of_answers answers (Or.inr notRead)),
        weak answer (unloaded_of_strongAfter answers stillWeak)⟩

/-- What permitted bodies of `release()` keep. -/
theorem Sound.step {after : World Thread D} (sound : Sound jib world)
    (moved : Step jib (OthersSafe jib) thread world after) : Sound jib after := by
  have notStrong : ∀ {task : Task D}, world.task thread = task → task.strong = true →
      world.lifetime.deallocating = false := by
    intro task isTask isStrong
    rw [Bool.eq_false_iff]
    intro isDeallocating
    have notStrong := sound.alone isDeallocating thread
    rw [isTask, isStrong] at notStrong
    cases notStrong
  cases moved with
  | start operation idle alive =>
      have shaped := operation.shaped_program jib
      refine sound.update_task rfl rfl rfl (fun _ => Or.inr alive) (by simp) ?_
      intro _ _ isTask
      cases isTask
      exact ⟨shaped.issues, fun _ => shaped.safe jib, by simp⟩
  | drop function idle =>
      refine sound.update_task rfl rfl rfl (by simp [Task.strong]) (by simp) ?_
      intro _ _ isTask
      cases isTask
      exact ⟨issues_deinit function, fun _ => safe_deinit jib function,
        fun _ => ⟨safe_deinit jib function, weak_deinit jib function⟩⟩
  | call answer atCall answers => exact sound.call_step atCall answers
  | @acquire strong next atLock free =>
      refine sound.update_task rfl rfl rfl ?_ (by simp) ?_
      · exact fun isStrong => Or.inl (by rw [atLock]; exact isStrong)
      · intro _ _ isTask
        cases isTask
        refine ⟨sound.ordinary thread strong (.acquire next) atLock,
          fun released => sound.safe released thread strong (.acquire next) atLock, ?_⟩
        rintro rfl
        exact (sound.weak thread _ atLock).2.elim
  | @unlock strong next atUnlock held =>
      refine sound.update_task rfl rfl rfl ?_ (by simp) ?_
      · exact fun isStrong => Or.inl (by rw [atUnlock]; exact isStrong)
      · intro _ _ isTask
        cases isTask
        refine ⟨sound.ordinary thread strong (.release next) atUnlock,
          fun released => sound.safe released thread strong (.release next) atUnlock, ?_⟩
        rintro rfl
        exact (sound.weak thread _ atUnlock).2.elim
  | finish atEnd =>
      exact sound.update_task rfl rfl rfl (by simp [Task.strong]) (by simp) (by simp)
  | beginRelease idle alive =>
      exact sound.update_task rfl rfl rfl (fun _ => Or.inr alive) (by simp) (by simp)
  | lockRelease waiting free =>
      exact sound.update_task rfl rfl rfl (fun _ => Or.inr (notStrong waiting rfl))
        (by simp) (by simp)
  | releaseBody dropped droppedPrint last locked permitted executed =>
      obtain ⟨consistent, released, sameDeallocating⟩ :=
        executes_releaseBody sound.consistent executed
      have alive := notStrong locked rfl
      refine sound.update rfl consistent (fun _ => Or.inr permitted) ?_ ?_ (by simp)
        (fun _ => released) (by simp)
      · exact fun isDeallocating => sameDeallocating.trans isDeallocating
      · intro isDeallocating
        rw [sameDeallocating, alive] at isDeallocating
        cases isDeallocating
  | unlockRelease done held =>
      exact sound.update_task rfl rfl rfl (by simp [Task.strong]) (by simp) (by simp)
  | beginDeinit idle alive unreferenced =>
      exact sound.update rfl ⟨sound.consistent.1, sound.consistent.2, sound.consistent.3⟩
        Or.inl (fun _ => rfl) (fun _ => ⟨rfl, fun other _ => unreferenced other⟩)
        (fun _ _ => rfl) sound.deallocated (by simp)
  | lockDeinit waiting free =>
      exact sound.update_task rfl rfl rfl (by simp [Task.strong])
        (fun _ _ => sound.deallocating thread _ waiting) (by simp)
  | deinitBody dropped droppedPrint last locked executed =>
      obtain ⟨consistent, released, sameDeallocating⟩ :=
        executes_releaseBody sound.consistent executed
      have isDeallocating := sound.deallocating thread _ locked
      have othersSafe : OthersSafe jib thread world := by
        intro other _ strong rest isTask
        have notStrong := sound.alone isDeallocating other
        rw [isTask] at notStrong
        obtain rfl : strong = false := notStrong
        exact (sound.weak other rest isTask).1
      exact sound.update rfl consistent (fun _ => Or.inr othersSafe)
        (fun _ => sameDeallocating.trans isDeallocating)
        (fun _ => ⟨rfl, fun other _ => sound.alone isDeallocating other⟩)
        (fun _ _ => sameDeallocating.trans isDeallocating) (fun _ => released) (by simp)
  | unlockDeinit done held =>
      exact sound.update_task rfl rfl rfl (by simp [Task.strong]) (by simp) (by simp)

theorem sound_of_reaches (reaches : Reaches jib (OthersSafe jib) world) :
    Sound jib world := by
  induction reaches with
  | refl => exact sound_initial
  | tail _ moved ih =>
      obtain ⟨thread, moved⟩ := moved
      exact ih.step moved

/-- When every body of `release()` finds the other threads safe, no call is
given the context after its release, and context and group are released at
most once, and exactly once when the `Jib` has been deallocated. -/
theorem release_safe (reaches : Reaches jib (OthersSafe jib) world) :
    world.lifetime.misused = false ∧
      world.lifetime.contextReleases ≤ 1 ∧ world.lifetime.groupReleases ≤ 1 ∧
        (world.deallocated = true →
          world.lifetime.contextReleases = 1 ∧ world.lifetime.groupReleases = 1) := by
  have sound := sound_of_reaches reaches
  obtain ⟨contexts, groups, unmisused⟩ := sound.consistent
  refine ⟨unmisused, ?_, ?_, ?_⟩
  · rw [contexts]
    split <;> omega
  · rw [groups]
    split <;> omega
  · intro deallocated
    rw [contexts, groups, sound.deallocated deallocated]
    exact ⟨rfl, rfl⟩

end World

/-! ## Runs with one release -/

/-- What a body leaves of a `Jib` that has not been released. -/
def Lifetime.once (deallocating : Bool) : Lifetime := ⟨true, deallocating, 1, 1, false⟩

theorem executes_first_body (jib : JibFields) (deallocating : Bool) :
    Executes jib (releaseBody jib [] none) ⟨false, deallocating, 0, 0, false⟩ ()
      (.once deallocating) := by
  refine ⟨(), trivial, (), trivial, false, rfl, (), trivial, (), trivial, (), trivial, rfl, ?_⟩
  simp [Lifetime.after, Lifetime.once, Command.context?]

namespace World

theorem reaches_initial {Thread : Type} [DecidableEq Thread] (jib : JibFields)
    (Permitted : Thread → World Thread D → Prop) : Reaches jib Permitted initial :=
  .refl

/-- One more step of a run. -/
theorem Reaches.step {Thread : Type} [DecidableEq Thread] {jib : JibFields}
    {Permitted : Thread → World Thread D → Prop} {world after : World Thread D}
    (reaches : Reaches jib Permitted world) (thread : Thread)
    (moved : Step jib Permitted thread world after) : Reaches jib Permitted after :=
  reaches.tail ⟨thread, moved⟩

/-- A collection has begun when another thread releases the context; it finds
`released` set and returns. -/
theorem release_safe_before_collect :
    ∃ world : World Bool Unit,
      Reaches ⟨0, 0, 0, 0, 0, 0⟩ (OthersSafe ⟨0, 0, 0, 0, 0, 0⟩) world ∧
        world.lifetime.released = true ∧ world.lifetime.misused = false := by
  let jib : JibFields := ⟨0, 0, 0, 0, 0, 0⟩
  let collect : PublicOperation Unit := .garbageCollect
  have start : Reaches jib (OthersSafe jib) (initial : World Bool Unit) :=
    reaches_initial jib (OthersSafe jib)
  have begun := start.step true (.start collect rfl rfl)
  have locked := (begun.step false (.beginRelease rfl rfl)).step false (.lockRelease rfl rfl)
  -- The collection is under way, but it has still to look at `released`.
  have othersSafe : OthersSafe jib false
      { ((initial.become true (.running true (collect.program jib)) : World Bool Unit).become
          false (.releasing .beforeLock)).become false (.releasing .beforeBody) with
        holder := some false } := by
    intro other different strong rest isTask
    obtain rfl : other = true := by simpa using different
    obtain ⟨-, rfl⟩ : true = strong ∧ collect.program jib = rest := by
      simpa [become, initial] using isTask
    exact (collect.shaped_program jib).safe jib
  have released := (locked.step false
    (.releaseBody [] none _ rfl othersSafe (executes_first_body jib false))).step false
      (.unlockRelease rfl rfl)
  have collected := (released.step true (.call true rfl (by rfl))).step true (.finish rfl)
  exact ⟨_, collected, rfl, (release_safe collected).1⟩

/-- A thread has found `released` unset and waits for the lock while another
thread releases the context; then it collects garbage in the context. -/
theorem collect_after_release :
    ∃ world : World Bool Unit,
      Reaches ⟨0, 0, 0, 0, 0, 0⟩ (fun _ _ => True) world ∧
        world.lifetime.misused = true := by
  let jib : JibFields := ⟨0, 0, 0, 0, 0, 0⟩
  have start : Reaches jib (fun _ _ => True) (initial : World Bool Unit) :=
    reaches_initial jib _
  have looked := (start.step true (.start .garbageCollect rfl rfl)).step true
    (.call false rfl (by rfl))
  have locked := (looked.step false (.beginRelease rfl rfl)).step false (.lockRelease rfl rfl)
  have released := (locked.step false
    (.releaseBody [] none _ rfl trivial (executes_first_body jib false))).step false
      (.unlockRelease rfl rfl)
  have collected := (released.step true (.acquire rfl rfl)).step true (.call () rfl trivial)
  exact ⟨_, collected, rfl⟩

end World

end Jib.JSC
