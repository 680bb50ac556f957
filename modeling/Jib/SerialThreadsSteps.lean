import Jib.SerialThreads

/-!
# Every quiet step keeps the operations serialized

There is one lemma for each kind of step.  A step of a thread that is not the
current one leaves the state alone; a step of the current thread keeps the
remaining run of its operation.
-/

namespace CommandProgram

namespace Pool

variable {I : Interface} {Thread Op Reply State : Type}
variable {system : System I Thread Op Reply State} {Possible : State → Prop}
  {first : State} {pool : Pool I Thread Op Reply State}
  {thread : Thread} {current : Option Thread}

theorem Serialized.not_current_of_idle
    (serialized : Serialized system Possible first pool current)
    (idle : (pool.activity thread).pending = none) :
    current ≠ some thread := by
  intro isCurrent
  obtain ⟨_, _, _, activePending, _⟩ := serialized.active thread isCurrent
  rw [idle] at activePending
  simp at activePending

/-- The current thread with its entry. -/
theorem Serialized.activeOk
    (serialized : Serialized system Possible first pool current)
    (isCurrent : current = some thread)
    {operation : Op} {entry : Option Nat} {rest : Program I Reply}
    (pending : (pool.activity thread).pending = some (operation, entry, rest)) :
    ∃ index, entry = some index ∧
      ActiveOk system first pool thread operation index rest := by
  obtain ⟨activeOperation, index, activeRest, activePending, ok⟩ :=
    serialized.active thread isCurrent
  rw [pending] at activePending
  simp only [Option.some.injEq, Prod.mk.injEq] at activePending
  obtain ⟨rfl, rfl, rfl⟩ := activePending
  exact ⟨index, rfl, ok⟩

/-- Completed records and passive threads survive a longer log. -/
theorem CompletedSerially.append {log : List (Thread × Op)}
    {record : Completed Op Reply}
    (serially : CompletedSerially system first log thread record)
    (entry : Thread × Op) :
    CompletedSerially system first (log ++ [entry]) thread record := by
  obtain ⟨index, isEntry, atIndex, reply⟩ := serially
  have bound : index < log.length := (List.getElem?_eq_some_iff.mp atIndex).1
  refine ⟨index, isEntry, ?_, ?_⟩
  · rw [List.getElem?_append_left bound]
    exact atIndex
  · rw [system.serialRun_append first log entry (Nat.le_of_lt bound)]
    exact reply

theorem PassiveOk.append {log : List (Thread × Op)}
    {work : Op × Option Nat × Program I Reply}
    (ok : PassiveOk system Possible first log thread work)
    (entry : Thread × Op) :
    PassiveOk system Possible first (log ++ [entry]) thread work := by
  obtain ⟨operation, position, rest⟩ := work
  cases position with
  | none => exact ok
  | some index =>
      obtain ⟨settled, atIndex, reply⟩ := ok
      have bound : index < log.length := (List.getElem?_eq_some_iff.mp atIndex).1
      refine ⟨settled, ?_, ?_⟩
      · rw [List.getElem?_append_left bound]
        exact atIndex
      · intro state possible
        rw [system.serialRun_append first log entry (Nat.le_of_lt bound)]
        exact reply state possible

theorem serialized_initial {state : State} (possible : Possible state) :
    Serialized system Possible state (initial state) none where
  possible := possible
  completed := by simp [initial]
  passive := by simp [initial, Activity.pending]
  active := by simp
  holder := by simp [initial]
  settled _ := rfl

theorem Serialized.free_of_idle
    (serialized : Serialized system Possible first pool current)
    (allIdle : ∀ other, pool.activity other = .idle) : pool.holder = none := by
  cases holder : pool.holder with
  | none => rfl
  | some active =>
      obtain ⟨_, _, _, pending, _⟩ :=
        serialized.active active (serialized.holder active holder)
      rw [allIdle active] at pending
      cases pending

variable [DecidableEq Thread]

/-- Only the activity of `thread` changes, and what is known of it still is. -/
theorem Serialized.become
    (serialized : Serialized system Possible first pool current)
    (notCurrent : current ≠ some thread) (activity : Activity I Op Reply)
    (ok : ∀ pending, activity.pending = some pending →
      PassiveOk system Possible first pool.log thread pending) :
    Serialized system Possible first (pool.become thread activity) current where
  possible := serialized.possible
  completed := serialized.completed
  passive := by
    intro other otherNotCurrent pending otherPending
    by_cases same : other = thread
    · subst other
      rw [become_activity_self] at otherPending
      exact ok pending otherPending
    · rw [become_activity_of_ne pool same] at otherPending
      exact serialized.passive other otherNotCurrent pending otherPending
  active := by
    intro other isCurrent
    have different : other ≠ thread := by
      intro same
      exact notCurrent (same ▸ isCurrent)
    obtain ⟨operation, index, rest, pending, activeOk⟩ :=
      serialized.active other isCurrent
    refine ⟨operation, index, rest, ?_, ?_⟩
    · rw [become_activity_of_ne pool different]
      exact pending
    · exact ⟨activeOk.last, activeOk.entry, activeOk.shape, activeOk.run_eq⟩
  holder := serialized.holder
  settled := serialized.settled

/-- The current thread moves on inside its operation. -/
theorem Serialized.becomeActive
    (serialized : Serialized system Possible first pool (some thread))
    {operation : Op} {index : Nat} {rest : Program I Reply}
    {activity : Activity I Op Reply} {after : Pool I Thread Op Reply State}
    (afterActivity : after.activity =
      Function.update pool.activity thread activity)
    (afterCompleted : after.completed = pool.completed)
    (afterLog : after.log = pool.log)
    (pending : activity.pending = some (operation, some index, rest))
    (possible : Possible after.state)
    (holder : ∀ other, after.holder = some other → other = thread)
    (ok : ActiveOk system first after thread operation index rest) :
    Serialized system Possible first after (some thread) where
  possible := possible
  completed := by
    rw [afterCompleted, afterLog]
    exact serialized.completed
  passive := by
    intro other otherNotCurrent otherWork otherPending
    have different : other ≠ thread := by
      intro same
      exact otherNotCurrent (congrArg some same.symm)
    rw [afterActivity, Function.update_of_ne different] at otherPending
    rw [afterLog]
    exact serialized.passive other otherNotCurrent otherWork otherPending
  active := by
    intro other isCurrent
    obtain rfl := Option.some.inj isCurrent
    refine ⟨operation, index, rest, ?_, ok⟩
    rw [afterActivity, Function.update_self]
    exact pending
  holder := by
    intro other holds
    rw [holder other holds]
  settled := by
    intro noCurrent
    simp at noCurrent

/-- A current thread whose rest is settled no longer counts as current. -/
theorem Serialized.retire
    (serialized : Serialized system Possible first pool current)
    (free : pool.holder = none)
    (quiet : ∀ other, current = some other →
      ∀ operation entry rest,
        (pool.activity other).pending = some (operation, some entry, rest) →
          rest.Settled system.handle Possible) :
    Serialized system Possible first pool none := by
  cases current with
  | none => exact serialized
  | some active =>
      obtain ⟨operation, index, rest, pending, activeOk⟩ :=
        serialized.active active rfl
      have settled := quiet active rfl operation index rest pending
      obtain ⟨reply, runs⟩ := settled.run_eq
      have runHere := activeOk.run_eq
      rw [runs pool.state serialized.possible] at runHere
      refine ⟨serialized.possible, serialized.completed, ?_, by simp, ?_, ?_⟩
      · intro thread _ work threadPending
        by_cases same : active = thread
        · subst thread
          rw [pending] at threadPending
          obtain rfl := Option.some.inj threadPending
          refine ⟨settled, activeOk.entry, ?_⟩
          intro state possible
          rw [runs state possible, ← runHere]
        · exact serialized.passive thread (by simpa using same) work threadPending
      · intro thread holds
        rw [free] at holds
        simp at holds
      · intro _
        calc
          pool.state = (reply, pool.state).2 := rfl
          _ = (system.serialRun first pool.log index operation).2 := by
            rw [runHere]
          _ = system.serialState first pool.log :=
            system.serialRun_last first activeOk.last activeOk.entry

/-- A finished operation is recorded and its thread is idle. -/
theorem Serialized.finish
    (serialized : Serialized system Possible first pool current)
    (notCurrent : current ≠ some thread) (record : Completed Op Reply)
    (serially : CompletedSerially system first pool.log thread record) :
    Serialized system Possible first
      { pool.become thread .idle with
        completed := Function.update pool.completed thread
          (pool.completed thread ++ [record]) } current := by
  have idle := serialized.become notCurrent (.idle : Activity I Op Reply)
    (by simp [Activity.pending])
  refine ⟨idle.possible, ?_, idle.passive, ?_, idle.holder, idle.settled⟩
  · intro other member memberMem
    change member ∈ Function.update pool.completed thread
      (pool.completed thread ++ [record]) other at memberMem
    by_cases same : other = thread
    · subst other
      rw [Function.update_self, List.mem_append, List.mem_singleton] at memberMem
      rcases memberMem with old | rfl
      · exact serialized.completed thread member old
      · exact serially
    · rw [Function.update_of_ne same] at memberMem
      exact serialized.completed other member memberMem
  · intro other isCurrent
    obtain ⟨operation, index, rest, pending, activeOk⟩ := idle.active other isCurrent
    exact ⟨operation, index, rest, pending,
      ⟨activeOk.last, activeOk.entry, activeOk.shape, activeOk.run_eq⟩⟩

theorem Serialized.finish_step
    (serialized : Serialized system Possible first pool current)
    {operation : Op} {entry : Option Nat} {reply : Reply}
    (atEnd : pool.activity thread = .running operation entry (.done reply)) :
    ∃ next, Serialized system Possible first
      { pool.become thread .idle with
        completed := Function.update pool.completed thread
          (pool.completed thread ++ [⟨operation, entry, reply⟩]) } next := by
  have pending : (pool.activity thread).pending =
      some (operation, entry, .done reply) := by
    rw [atEnd]
    rfl
  by_cases isCurrent : current = some thread
  · obtain ⟨index, rfl, activeOk⟩ := serialized.activeOk isCurrent pending
    have free : pool.holder = none := by
      rcases activeOk.shape with ⟨_, inSection⟩ | ⟨free, _⟩
      · exact inSection.elim
      · exact free
    -- nothing is left to run, so the thread is settled and can be retired first
    have retired := serialized.retire free (by
      intro other otherCurrent otherOperation otherEntry rest otherPending
      obtain rfl := Option.some.inj (isCurrent.symm.trans otherCurrent)
      rw [pending] at otherPending
      simp only [Option.some.injEq, Prod.mk.injEq] at otherPending
      rw [← otherPending.2.2]
      trivial)
    have passive := retired.passive thread (by simp) _ pending
    refine ⟨none, retired.finish (by simp) _ ⟨index, rfl, passive.2.1, ?_⟩⟩
    exact passive.2.2 pool.state serialized.possible
  · have passive := serialized.passive thread isCurrent _ pending
    refine ⟨current, serialized.finish isCurrent _ ?_⟩
    cases entry with
    | none => exact passive.1.elim
    | some index =>
        exact ⟨index, rfl, passive.2.1, passive.2.2 pool.state serialized.possible⟩

theorem Serialized.acquire_step
    (serialized : Serialized system Possible first pool current)
    {operation : Op} {entry : Option Nat} {next : Program I Reply}
    (atLock : pool.activity thread = .running operation entry (.acquire next))
    (free : pool.holder = none)
    (othersSettled : pool.OthersSettled system Possible thread) :
    Serialized system Possible first
      { pool.become thread
          (.running operation (some pool.log.length) next) with
        holder := some thread
        log := pool.log ++ [(thread, operation)] } (some thread) := by
  have pending : (pool.activity thread).pending =
      some (operation, entry, .acquire next) := by
    rw [atLock]
    rfl
  have notCurrent : current ≠ some thread := by
    intro isCurrent
    obtain ⟨index, rfl, activeOk⟩ := serialized.activeOk isCurrent pending
    rcases activeOk.shape with ⟨_, inSection⟩ | ⟨_, inTail⟩
    · exact inSection
    · exact inTail
  have retired := serialized.retire free (by
    intro other isCurrent otherOperation otherEntry rest otherPending
    have different : other ≠ thread := by
      intro same
      exact notCurrent (same ▸ isCurrent)
    exact othersSettled other different otherOperation otherEntry rest otherPending)
  have passive := retired.passive thread (by simp) _ pending
  have noEntry : entry = none := by
    cases entry with
    | none => rfl
    | some index => exact passive.1.elim
  subst noEntry
  refine ⟨serialized.possible, ?_, ?_, ?_, ?_, by simp⟩
  · intro other record recordMem
    exact (serialized.completed other record recordMem).append _
  · intro other otherNotCurrent work otherPending
    have different : other ≠ thread := by
      intro same
      exact otherNotCurrent (congrArg some same.symm)
    have unchanged :
        (pool.activity other).pending = some work := by
      rw [← become_activity_of_ne pool different
        (.running operation (some pool.log.length) next)]
      exact otherPending
    exact (retired.passive other (by simp) work unchanged).append _
  · intro other isCurrent
    obtain rfl := Option.some.inj isCurrent
    refine ⟨operation, pool.log.length, next, by simp [Activity.pending], ?_⟩
    refine ⟨by simp, by simp, Or.inl ⟨rfl, passive.1⟩, ?_⟩
    change next.run system.handle pool.state =
      system.serialRun first (pool.log ++ [(thread, operation)])
        pool.log.length operation
    have openingRun := passive.2 pool.state serialized.possible
    rw [Program.run_acquire] at openingRun
    rw [openingRun, retired.settled rfl, System.serialRun, List.take_left]
  · intro other holds
    exact holds

theorem Serialized.release_step
    (serialized : Serialized system Possible first pool current)
    {operation : Op} {entry : Option Nat} {next : Program I Reply}
    (atUnlock : pool.activity thread = .running operation entry (.release next))
    (held : pool.holder = some thread) :
    Serialized system Possible first
      { pool.become thread (.running operation entry next) with
        holder := none } (some thread) := by
  have pending : (pool.activity thread).pending =
      some (operation, entry, .release next) := by
    rw [atUnlock]
    rfl
  have isCurrent := serialized.holder thread held
  obtain ⟨index, rfl, activeOk⟩ := serialized.activeOk isCurrent pending
  subst isCurrent
  have inTail : next.Tail := by
    rcases activeOk.shape with ⟨_, inSection⟩ | ⟨free, _⟩
    · exact inSection
    · rw [held] at free
      simp at free
  refine serialized.becomeActive rfl rfl rfl rfl serialized.possible ?_
    ⟨activeOk.last, activeOk.entry, Or.inr ⟨rfl, inTail⟩, activeOk.run_eq⟩
  intro other holds
  simp at holds

/-- Entering a command changes nothing that is left to do. -/
theorem Serialized.enter_step
    (serialized : Serialized system Possible first pool current)
    {operation : Op} {entry : Option Nat} {command : I.Command}
    {next : I.Answer command → Program I Reply}
    (atCall : pool.activity thread =
      .running operation entry (.call command next)) :
    Serialized system Possible first
      (pool.become thread (.inside operation entry command next)) current := by
  have pending : (pool.activity thread).pending =
      some (operation, entry, .call command next) := by
    rw [atCall]
    rfl
  by_cases isCurrent : current = some thread
  · obtain ⟨index, rfl, activeOk⟩ := serialized.activeOk isCurrent pending
    subst isCurrent
    refine serialized.becomeActive rfl rfl rfl rfl serialized.possible ?_
      ⟨activeOk.last, activeOk.entry, activeOk.shape, activeOk.run_eq⟩
    intro other holds
    exact (Option.some.inj (serialized.holder other holds)).symm
  · apply serialized.become isCurrent
    intro work workPending
    exact serialized.passive thread isCurrent work (pending.trans workPending)

theorem Serialized.leave_step
    (serialized : Serialized system Possible first pool current)
    (closed : ∀ command state, Possible state →
      Possible (system.handle command state).2)
    {operation : Op} {entry : Option Nat} {command : I.Command}
    {next : I.Answer command → Program I Reply}
    (inCall : pool.activity thread = .inside operation entry command next) :
    Serialized system Possible first
      { pool.become thread
          (.running operation entry (next (system.handle command pool.state).1)) with
        state := (system.handle command pool.state).2 } current := by
  have pending : (pool.activity thread).pending =
      some (operation, entry, .call command next) := by
    rw [inCall]
    rfl
  by_cases isCurrent : current = some thread
  · obtain ⟨index, rfl, activeOk⟩ := serialized.activeOk isCurrent pending
    subst isCurrent
    refine serialized.becomeActive rfl rfl rfl rfl
      (closed command pool.state serialized.possible) ?_
      ⟨activeOk.last, activeOk.entry, ?_, activeOk.run_eq⟩
    · intro other holds
      exact (Option.some.inj (serialized.holder other holds)).symm
    · rcases activeOk.shape with ⟨held, inSection⟩ | ⟨free, inTail⟩
      · exact Or.inl ⟨held, inSection _⟩
      · exact Or.inr ⟨free, inTail _⟩
  · -- a passive thread only issues constant commands, so the state stays
    have passive := serialized.passive thread isCurrent _ pending
    have ok : PassiveOk system Possible first pool.log thread
          (operation, entry, next (system.handle command pool.state).1) ∧
        (system.handle command pool.state).2 = pool.state := by
      cases entry with
      | none =>
          obtain ⟨rest, sameState, runs⟩ :=
            passive.1.call_answer serialized.possible
          refine ⟨⟨rest, ?_⟩, sameState⟩
          intro state possible
          rw [runs state possible]
          exact passive.2 state possible
      | some index =>
          obtain ⟨settled, atIndex, reply⟩ := passive
          obtain ⟨rest, sameState⟩ := settled.call_answer serialized.possible
          refine ⟨⟨rest, atIndex, ?_⟩, sameState⟩
          obtain ⟨value, runs⟩ := rest.run_eq
          intro state possible
          rw [← reply pool.state serialized.possible, Program.run_call, sameState,
            runs state possible, runs pool.state serialized.possible]
    have moved := serialized.become isCurrent
      (.running operation entry (next (system.handle command pool.state).1)) (by
        intro work workPending
        obtain rfl := Option.some.inj workPending
        exact ok.1)
    rw [ok.2]
    exact moved

/-- One quiet step keeps the operations serialized. -/
theorem Serialized.transition {after : Pool I Thread Op Reply State}
    (serialized : ∃ current, Serialized system Possible first pool current)
    (closed : ∀ command state, Possible state →
      Possible (system.handle command state).2)
    (shape : ∀ operation,
      (system.program operation).Opening system.handle Possible)
    (quiet : pool.Quiet system Possible thread)
    (moved : Transition system thread pool after) :
    ∃ current, Serialized system Possible first after current := by
  obtain ⟨current, serialized⟩ := serialized
  cases moved with
  | @start operation idle chosen =>
      refine ⟨current, serialized.become ?_ _ ?_⟩
      · apply serialized.not_current_of_idle
        rw [idle]
        rfl
      · intro work workPending
        obtain rfl := Option.some.inj workPending
        exact ⟨shape operation, fun _ _ => rfl⟩
  | finish atEnd => exact serialized.finish_step atEnd
  | acquire atLock free =>
      exact ⟨_, serialized.acquire_step atLock free (quiet _ _ _ atLock free)⟩
  | release atUnlock held => exact ⟨_, serialized.release_step atUnlock held⟩
  | enter atCall => exact ⟨_, serialized.enter_step atCall⟩
  | leave inCall => exact ⟨_, serialized.leave_step closed inCall⟩

/-- Every pool reached by quiet steps is serialized. -/
theorem serialized_of_reaches {state : State}
    (closed : ∀ command state, Possible state →
      Possible (system.handle command state).2)
    (shape : ∀ operation,
      (system.program operation).Opening system.handle Possible)
    (possible : Possible state)
    (reaches : Reaches system (Quiet system Possible) (initial state) pool) :
    ∃ current, Serialized system Possible state pool current :=
  reaches.invariant ⟨none, serialized_initial possible⟩
    fun serialized quiet moved =>
      Serialized.transition serialized closed shape quiet moved

/-- A thread that runs while all others are settled is always quiet. -/
theorem reaches_quiet_of_othersSettled {count : Nat} {last : Pool I Thread Op Reply State}
    (settled : pool.OthersSettled system Possible thread)
    (ran : runSchedule system (List.replicate count thread) pool = some last) :
    Reaches system (Quiet system Possible) pool last := by
  induction count generalizing pool with
  | zero =>
      obtain rfl := Option.some.inj ran
      exact .refl
  | succ count ih =>
      obtain ⟨middle, stepTo, restRan⟩ := Option.bind_eq_some_iff.mp ran
      have moved := transition_of_step stepTo
      have settledAfter : middle.OthersSettled system Possible thread := by
        intro other different
        rw [moved.activity_of_ne different]
        exact settled other different
      exact .head ⟨thread, fun _ _ _ _ _ => settled, stepTo⟩ (ih settledAfter restRan)

/-- After other turns, one of a thread while all others are settled. -/
theorem Reaches.turn {turns : List Thread} {count : Nat} {first last : Pool I Thread Op Reply State}
    (ran : runSchedule system (turns ++ List.replicate count thread) first = some last)
    (earlier : ∀ middle, runSchedule system turns first = some middle →
      Reaches system (Quiet system Possible) first middle ∧
        middle.OthersSettled system Possible thread) :
    Reaches system (Quiet system Possible) first last := by
  rw [runSchedule_append] at ran
  obtain ⟨middle, toMiddle, restRan⟩ := Option.bind_eq_some_iff.mp ran
  obtain ⟨reaches, settled⟩ := earlier middle toMiddle
  exact reaches.trans (reaches_quiet_of_othersSettled settled restRan)

/-- Once no thread has unsettled commands and the lock is free, the state is
that of the serial run. -/
theorem Serialized.state_eq
    (serialized : Serialized system Possible first pool current)
    (free : pool.holder = none)
    (allSettled : ∀ other operation entry rest,
      (pool.activity other).pending = some (operation, some entry, rest) →
        rest.Settled system.handle Possible) :
    pool.state = system.serialState first pool.log :=
  (serialized.retire free fun other _ => allSettled other).settled rfl

end Pool

end CommandProgram
