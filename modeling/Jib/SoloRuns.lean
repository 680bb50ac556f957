import Jib.ExclusiveThreads

/-!
# Commands issued in exclusive runs

A program run alone meets each of its commands in some state.  When all
threads run guarded programs, a thread meets its commands in the same states
as it does when the logged operations run one after another.
-/

namespace CommandProgram

namespace Program

variable {I : Interface} {α β State : Type} {handle : Handler I State}
  {Holds : State → I.Command → Prop}

/-- `Holds` of every command that the program issues when it is run alone, in
the state in which it is issued. -/
def Always (handle : Handler I State) (Holds : State → I.Command → Prop) :
    Program I α → State → Prop
  | .done _, _ => True
  | .acquire next, state => next.Always handle Holds state
  | .release next, state => next.Always handle Holds state
  | .call command next, state =>
      Holds state command ∧
        (next (handle command state).1).Always handle Holds
          (handle command state).2

@[simp]
theorem always_done (value : α) (state : State) :
    (Program.done value : Program I α).Always handle Holds state :=
  trivial

@[simp]
theorem always_call (command : I.Command)
    (next : I.Answer command → Program I α) (state : State) :
    (Program.call command next).Always handle Holds state ↔
      Holds state command ∧
        (next (handle command state).1).Always handle Holds
          (handle command state).2 :=
  Iff.rfl

@[simp]
theorem always_bind (program : Program I α) (continuation : α → Program I β)
    (state : State) :
    (program >>= continuation).Always handle Holds state ↔
      program.Always handle Holds state ∧
        (continuation (program.run handle state).1).Always handle Holds
          (program.run handle state).2 := by
  induction program generalizing state with
  | done value => exact (and_iff_right trivial).symm
  | acquire next ih => exact ih state
  | release next ih => exact ih state
  | call command next ih =>
      rw [call_bind, always_call, ih, always_call, and_assoc]
      rfl

theorem Uses.always {Allowed : I.Command → Prop} {program : Program I α}
    (uses : program.Uses Allowed) (holds : ∀ command state, Allowed command → Holds state command)
    (state : State) : program.Always handle Holds state := by
  induction program generalizing state with
  | done value => trivial
  | acquire next => exact uses.elim
  | release next => exact uses.elim
  | call command next ih =>
      exact ⟨holds command state uses.1, ih _ (uses.2 _) _⟩

@[simp]
theorem always_locked (body : Program I α) (state : State) :
    (locked body).Always handle Holds state ↔ body.Always handle Holds state := by
  change (body >>= fun value => .release (.done value)).Always handle Holds state ↔ _
  rw [always_bind]
  exact and_iff_left trivial

end Program

namespace Pool

variable {I : Interface} {Thread Op Reply State : Type}

/-- A thread that has not had the lock has not started; the thread that holds
it continues a run of its operation from the serial state at its entry. -/
structure Following (system : System I Thread Op Reply State)
    (Holds : State → State → I.Command → Prop) (first : State)
    (pool : Pool I Thread Op Reply State) : Prop where
  fresh : ∀ thread operation rest,
    (pool.activity thread).pending = some (operation, none, rest) →
      rest = system.program operation
  holder : ∀ thread operation index rest,
    (pool.activity thread).pending = some (operation, some index, rest) →
      pool.holder = some thread →
        pool.log[index]? = some (thread, operation) ∧
          rest.Always system.handle
            (Holds (system.serialState first (pool.log.take index))) pool.state

variable {system : System I Thread Op Reply State}
  {Holds : State → State → I.Command → Prop} {first : State}
  {pool : Pool I Thread Op Reply State} {thread : Thread}

theorem following_initial (state : State) :
    Following system Holds first (initial state) where
  fresh := by simp [initial, Activity.pending]
  holder := by simp [initial, Activity.pending]

/-- A thread that has entered a command or is about to release the lock has
acquired it. -/
theorem Exclusive.entered (exclusive : Exclusive pool) {operation : Op}
    {entry : Option Nat} {rest : Program I Reply}
    (pending : (pool.activity thread).pending = some (operation, entry, rest))
    (unguarded : ¬ rest.Guarded) : ∃ index, entry = some index := by
  cases entry with
  | none => exact absurd (exclusive thread _ pending) unguarded
  | some index => exact ⟨index, rfl⟩

variable [DecidableEq Thread]

/-- In an exclusive run the state is serial whenever the lock is free. -/
theorem Exclusive.state_eq {current : Option Thread} (exclusive : Exclusive pool)
    (serialized : Serialized system (fun _ => True) first pool current)
    (free : pool.holder = none) :
    pool.state = system.serialState first pool.log := by
  apply serialized.state_eq free
  intro other operation entry rest pending
  obtain ⟨reply, rfl⟩ := exclusive.done_of_free free pending
  trivial

/-- The activity of one thread changes, and any other thread that holds the
lock afterwards has held it before and finds nothing changed. -/
theorem Following.become {after : Pool I Thread Op Reply State}
    {activity : Activity I Op Reply}
    (following : Following system Holds first pool)
    (afterActivity : after.activity =
      Function.update pool.activity thread activity)
    (unchanged : ∀ other ≠ thread, after.holder = some other →
      pool.holder = some other ∧ after.state = pool.state ∧ after.log = pool.log)
    (fresh : ∀ operation rest, activity.pending = some (operation, none, rest) →
      rest = system.program operation)
    (holder : ∀ operation index rest,
      activity.pending = some (operation, some index, rest) →
        after.holder = some thread →
          after.log[index]? = some (thread, operation) ∧
            rest.Always system.handle
              (Holds (system.serialState first (after.log.take index)))
                after.state) :
    Following system Holds first after where
  fresh := by
    intro other operation rest pending
    rw [afterActivity] at pending
    by_cases same : other = thread
    · subst other
      rw [Function.update_self] at pending
      exact fresh operation rest pending
    · rw [Function.update_of_ne same] at pending
      exact following.fresh other operation rest pending
  holder := by
    intro other operation index rest pending held
    rw [afterActivity] at pending
    by_cases same : other = thread
    · subst other
      rw [Function.update_self] at pending
      exact holder operation index rest pending held
    · rw [Function.update_of_ne same] at pending
      obtain ⟨heldBefore, sameState, sameLog⟩ := unchanged other same held
      rw [sameState, sameLog]
      exact following.holder other operation index rest pending heldBefore

theorem Following.transition {after : Pool I Thread Op Reply State}
    (always : ∀ operation state,
      (system.program operation).Always system.handle (Holds state) state)
    (exclusive : Exclusive pool)
    (serial : pool.holder = none → pool.state = system.serialState first pool.log)
    (following : Following system Holds first pool)
    (moved : Transition system thread pool after) :
    Following system Holds first after := by
  cases moved with
  | @start operation idle chosen =>
      refine following.become rfl (fun _ _ held => ⟨held, rfl, rfl⟩) ?_ ?_
      · intro _ rest pending
        cases pending
        rfl
      · intro _ index rest pending
        cases pending
  | @finish operation entry reply atEnd =>
      refine following.become rfl (fun _ _ held => ⟨held, rfl, rfl⟩) ?_ ?_
      · intro _ rest pending
        cases pending
      · intro _ index rest pending
        cases pending
  | @acquire operation entry next atLock free =>
      have atAcquire : (pool.activity thread).pending =
          some (operation, entry, .acquire next) := by
        rw [atLock]
        rfl
      have isProgram : .acquire next = system.program operation := by
        cases entry with
        | none => exact following.fresh thread operation _ atAcquire
        | some index =>
            obtain ⟨reply, isDone⟩ := exclusive.done_of_free free atAcquire
            cases isDone
      refine following.become rfl ?_ ?_ ?_
      · intro other different held
        exact absurd (Option.some.inj held).symm different
      · intro _ rest pending
        cases pending
      · intro _ index rest pending _
        cases pending
        have runs := always operation (system.serialState first pool.log)
        rw [← isProgram, ← serial free] at runs
        refine ⟨by simp, ?_⟩
        change next.Always system.handle (Holds (system.serialState first
          ((pool.log ++ [(thread, operation)]).take pool.log.length))) pool.state
        rw [List.take_left' rfl, ← serial free]
        exact runs
  | @release operation entry next atUnlock held =>
      have pendingRelease : (pool.activity thread).pending =
          some (operation, entry, .release next) := by
        rw [atUnlock]
        rfl
      obtain ⟨index, rfl⟩ := exclusive.entered pendingRelease id
      refine following.become rfl ?_ ?_ ?_
      · intro _ _ otherHolds
        cases otherHolds
      · intro _ rest pending
        cases pending
      · intro _ _ rest _ stillHeld
        cases stillHeld
  | @enter operation entry command next atCall =>
      refine following.become rfl (fun _ _ held => ⟨held, rfl, rfl⟩) ?_ ?_
      · intro _ rest pending
        apply following.fresh thread
        rw [atCall]
        exact pending
      · intro _ index rest pending held
        apply following.holder thread _ index rest _ held
        rw [atCall]
        exact pending
  | @leave operation entry command next inCall =>
      have held := exclusive.holder_of_inside inCall
      have pendingCall : (pool.activity thread).pending =
          some (operation, entry, .call command next) := by
        rw [inCall]
        rfl
      obtain ⟨index, rfl⟩ := exclusive.entered pendingCall id
      refine following.become rfl ?_ ?_ ?_
      · intro other different otherHolds
        change pool.holder = some other at otherHolds
        rw [held] at otherHolds
        exact absurd (Option.some.inj otherHolds).symm different
      · intro _ rest pending
        cases pending
      · intro _ _ rest pending _
        cases pending
        obtain ⟨atIndex, runs⟩ :=
          following.holder thread operation index _ pendingCall held
        exact ⟨atIndex, runs.2⟩

/-- In an exclusive run a thread issues a command only in a state in which it
issues it in the serial run, so whatever holds there holds here. -/
theorem always_of_reaches
    (guarded : ∀ operation, (system.program operation).Guarded)
    (always : ∀ operation state,
      (system.program operation).Always system.handle (Holds state) state)
    {allowed : Thread → Pool I Thread Op Reply State → Prop}
    (reaches : Reaches system allowed (initial first) pool)
    {operation : Op} {entry : Option Nat} {command : I.Command}
    {next : I.Answer command → Program I Reply}
    (inCall : pool.activity thread = .inside operation entry command next) :
    ∃ index, entry = some index ∧
      pool.log[index]? = some (thread, operation) ∧
        Holds (system.serialState first (pool.log.take index)) pool.state command := by
  let Invariant : Pool I Thread Op Reply State → Prop := fun pool =>
    Exclusive pool ∧ Following system Holds first pool ∧
      ∃ current, Serialized system (fun _ => True) first pool current
  have start : Invariant (initial first) :=
    ⟨exclusive_initial first, following_initial first, none,
      serialized_initial trivial⟩
  have holds : Invariant pool := by
    apply reaches.invariant start
    intro mover before after holds _ moved
    obtain ⟨exclusive, following, current, serialized⟩ := holds
    refine ⟨exclusive.transition guarded moved,
      following.transition always exclusive (exclusive.state_eq serialized) moved, ?_⟩
    exact Serialized.transition ⟨current, serialized⟩ (fun _ _ _ => trivial)
      (fun operation => (guarded operation).opening _ _) (exclusive.quiet _) moved
  obtain ⟨exclusive, following, _⟩ := holds
  have pendingCall : (pool.activity thread).pending =
      some (operation, entry, .call command next) := by
    rw [inCall]
    rfl
  obtain ⟨index, rfl⟩ := exclusive.entered pendingCall id
  obtain ⟨atIndex, runs⟩ := following.holder thread operation index _ pendingCall
    (exclusive.holder_of_inside inCall)
  exact ⟨index, rfl, atIndex, runs.1⟩

end Pool

end CommandProgram
