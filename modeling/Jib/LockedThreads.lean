import Jib.CommandProgram
import Mathlib.Logic.Function.Basic

/-!
# Threads that share one lock

Any number of threads run programs over the same interface and the same lock.
Every lock action is one step and every command is two, entering it and
leaving it with its answer, so that two threads can be inside commands at the
same time.  A client decides which operation a thread starts next from the
replies the thread has seen.  The log records operations in the order in which
they acquired the lock.
-/

namespace CommandProgram

/-- What a thread is doing.  `entry` is the position in the log of the running
operation, once it has acquired the lock. -/
inductive Activity (I : Interface) (Op Reply : Type) : Type
  | idle
  | running (operation : Op) (entry : Option Nat) (rest : Program I Reply)
  | inside (operation : Op) (entry : Option Nat) (command : I.Command)
      (next : I.Answer command → Program I Reply)

/-- An operation that has returned. -/
structure Completed (Op Reply : Type) where
  operation : Op
  entry : Option Nat
  reply : Reply

/-- The shared state, the lock and all threads. -/
structure Pool (I : Interface) (Thread Op Reply State : Type) where
  state : State
  holder : Option Thread
  activity : Thread → Activity I Op Reply
  completed : Thread → List (Completed Op Reply)
  log : List (Thread × Op)

/-- The environment, the program of each operation and the clients. -/
structure System (I : Interface) (Thread Op Reply State : Type) where
  handle : Handler I State
  program : Op → Program I Reply
  client : Thread → List Reply → Option Op

namespace Activity

variable {I : Interface} {Op Reply : Type}

/-- The operation in progress with what is left of it.  A command that has
been entered is still to be answered. -/
def pending : Activity I Op Reply → Option (Op × Option Nat × Program I Reply)
  | .idle => none
  | .running operation entry rest => some (operation, entry, rest)
  | .inside operation entry command next =>
      some (operation, entry, .call command next)

end Activity

namespace Pool

variable {I : Interface} {Thread Op Reply State : Type}

/-- No thread has started anything and the lock is free. -/
def initial (state : State) : Pool I Thread Op Reply State where
  state := state
  holder := none
  activity _ := .idle
  completed _ := []
  log := []

def replies (pool : Pool I Thread Op Reply State) (thread : Thread) :
    List Reply :=
  (pool.completed thread).map Completed.reply

/-- The thread has entered a command and not left it. -/
def Inside (pool : Pool I Thread Op Reply State) (thread : Thread) : Prop :=
  ∃ operation entry command next,
    pool.activity thread = .inside operation entry command next

variable [DecidableEq Thread]

/-- Change what one thread is doing. -/
def become (pool : Pool I Thread Op Reply State) (thread : Thread)
    (activity : Activity I Op Reply) : Pool I Thread Op Reply State :=
  { pool with activity := Function.update pool.activity thread activity }

/-- The next step of `thread`, if it has one.  A thread whose next action is
to acquire the lock has none while the lock is held. -/
def step (system : System I Thread Op Reply State) (thread : Thread)
    (pool : Pool I Thread Op Reply State) :
    Option (Pool I Thread Op Reply State) :=
  match pool.activity thread with
  | .idle =>
      (system.client thread (pool.replies thread)).map fun operation =>
        pool.become thread
          (.running operation none (system.program operation))
  | .running operation entry (.done reply) =>
      some { pool.become thread .idle with
        completed := Function.update pool.completed thread
          (pool.completed thread ++ [⟨operation, entry, reply⟩]) }
  | .running operation _ (.acquire next) =>
      match pool.holder with
      | none =>
          some { pool.become thread
              (.running operation (some pool.log.length) next) with
            holder := some thread
            log := pool.log ++ [(thread, operation)] }
      | some _ => none
  | .running operation entry (.release next) =>
      if pool.holder = some thread then
        some { pool.become thread (.running operation entry next) with
          holder := none }
      else none
  | .running operation entry (.call command next) =>
      some (pool.become thread (.inside operation entry command next))
  | .inside operation entry command next =>
      let answered := system.handle command pool.state
      some { pool.become thread (.running operation entry (next answered.1)) with
        state := answered.2 }

/-- Run a schedule: the list says which thread moves next. -/
def runSchedule (system : System I Thread Op Reply State) :
    List Thread → Pool I Thread Op Reply State →
      Option (Pool I Thread Op Reply State)
  | [], pool => some pool
  | thread :: rest, pool => (pool.step system thread).bind (runSchedule system rest)

theorem runSchedule_append (system : System I Thread Op Reply State) (first rest : List Thread)
    (pool : Pool I Thread Op Reply State) :
    runSchedule system (first ++ rest) pool =
      (runSchedule system first pool).bind (runSchedule system rest) := by
  induction first generalizing pool with
  | nil => rfl
  | cons thread first ih =>
      rw [List.cons_append, runSchedule, runSchedule, Option.bind_assoc]
      exact congrArg _ (funext ih)

/-- Everything a step of `thread` can be. -/
inductive Transition (system : System I Thread Op Reply State)
    (thread : Thread) (pool : Pool I Thread Op Reply State) :
    Pool I Thread Op Reply State → Prop
  | start {operation}
      (idle : pool.activity thread = .idle)
      (chosen : system.client thread (pool.replies thread) = some operation) :
      Transition system thread pool
        (pool.become thread (.running operation none (system.program operation)))
  | finish {operation entry reply}
      (atEnd : pool.activity thread = .running operation entry (.done reply)) :
      Transition system thread pool
        { pool.become thread .idle with
          completed := Function.update pool.completed thread
            (pool.completed thread ++ [⟨operation, entry, reply⟩]) }
  | acquire {operation entry next}
      (atLock : pool.activity thread = .running operation entry (.acquire next))
      (free : pool.holder = none) :
      Transition system thread pool
        { pool.become thread
            (.running operation (some pool.log.length) next) with
          holder := some thread
          log := pool.log ++ [(thread, operation)] }
  | release {operation entry next}
      (atUnlock : pool.activity thread = .running operation entry (.release next))
      (held : pool.holder = some thread) :
      Transition system thread pool
        { pool.become thread (.running operation entry next) with
          holder := none }
  | enter {operation entry command next}
      (atCall : pool.activity thread = .running operation entry (.call command next)) :
      Transition system thread pool
        (pool.become thread (.inside operation entry command next))
  | leave {operation entry command next}
      (inCall : pool.activity thread = .inside operation entry command next) :
      Transition system thread pool
        { pool.become thread
            (.running operation entry (next (system.handle command pool.state).1)) with
          state := (system.handle command pool.state).2 }

theorem transition_of_step {system : System I Thread Op Reply State}
    {thread : Thread} {pool next : Pool I Thread Op Reply State}
    (stepTo : pool.step system thread = some next) :
    Transition system thread pool next := by
  unfold step at stepTo
  split at stepTo
  · rename_i idle
    obtain ⟨operation, chosen, rfl⟩ := Option.map_eq_some_iff.mp stepTo
    exact .start idle chosen
  · rename_i atEnd
    obtain rfl := Option.some.inj stepTo
    exact .finish atEnd
  · rename_i atLock
    split at stepTo
    · rename_i free
      obtain rfl := Option.some.inj stepTo
      exact .acquire atLock free
    · exact absurd stepTo (by simp)
  · rename_i atUnlock
    split at stepTo
    · rename_i held
      obtain rfl := Option.some.inj stepTo
      exact .release atUnlock held
    · exact absurd stepTo (by simp)
  · rename_i atCall
    obtain rfl := Option.some.inj stepTo
    exact .enter atCall
  · rename_i inCall
    obtain rfl := Option.some.inj stepTo
    exact .leave inCall

/-- Reachable by steps that each satisfy `allowed`. -/
def Reaches (system : System I Thread Op Reply State)
    (allowed : Thread → Pool I Thread Op Reply State → Prop) :
    Pool I Thread Op Reply State → Pool I Thread Op Reply State → Prop :=
  Relation.ReflTransGen fun before after =>
    ∃ thread, allowed thread before ∧ before.step system thread = some after

theorem reaches_of_runSchedule {system : System I Thread Op Reply State}
    {schedule : List Thread} {pool last : Pool I Thread Op Reply State}
    (ran : runSchedule system schedule pool = some last) :
    Reaches system (fun _ _ => True) pool last := by
  induction schedule generalizing pool with
  | nil =>
      obtain rfl := Option.some.inj ran
      exact .refl
  | cons thread rest ih =>
      obtain ⟨middle, stepTo, restRan⟩ := Option.bind_eq_some_iff.mp ran
      exact .head ⟨thread, trivial, stepTo⟩ (ih restRan)

/-- An invariant that every allowed step preserves holds of every pool
reached. -/
theorem Reaches.invariant {system : System I Thread Op Reply State}
    {allowed : Thread → Pool I Thread Op Reply State → Prop}
    {Invariant : Pool I Thread Op Reply State → Prop}
    {first last : Pool I Thread Op Reply State}
    (reaches : Reaches system allowed first last)
    (holds : Invariant first)
    (preserved : ∀ {thread before after}, Invariant before →
      allowed thread before → Transition system thread before after →
        Invariant after) :
    Invariant last := by
  induction reaches with
  | refl => exact holds
  | tail _ stepTo ih =>
      obtain ⟨thread, permitted, stepped⟩ := stepTo
      exact preserved ih permitted (transition_of_step stepped)

@[simp]
theorem become_activity_self (pool : Pool I Thread Op Reply State)
    (thread : Thread) (activity : Activity I Op Reply) :
    (pool.become thread activity).activity thread = activity := by
  simp [become]

theorem become_activity_of_ne (pool : Pool I Thread Op Reply State)
    {thread other : Thread} (different : other ≠ thread)
    (activity : Activity I Op Reply) :
    (pool.become thread activity).activity other = pool.activity other := by
  simp [become, different]

theorem Transition.activity_of_ne {system : System I Thread Op Reply State}
    {thread other : Thread} {pool after : Pool I Thread Op Reply State}
    (moved : Transition system thread pool after) (different : other ≠ thread) :
    after.activity other = pool.activity other := by
  cases moved <;> exact Function.update_of_ne different _ _

@[simp]
theorem become_state (pool : Pool I Thread Op Reply State) (thread : Thread)
    (activity : Activity I Op Reply) :
    (pool.become thread activity).state = pool.state :=
  rfl

@[simp]
theorem become_holder (pool : Pool I Thread Op Reply State) (thread : Thread)
    (activity : Activity I Op Reply) :
    (pool.become thread activity).holder = pool.holder :=
  rfl

@[simp]
theorem become_completed (pool : Pool I Thread Op Reply State)
    (thread : Thread) (activity : Activity I Op Reply) :
    (pool.become thread activity).completed = pool.completed :=
  rfl

@[simp]
theorem become_log (pool : Pool I Thread Op Reply State) (thread : Thread)
    (activity : Activity I Op Reply) :
    (pool.become thread activity).log = pool.log :=
  rfl

end Pool

end CommandProgram
