import Jib.SerialThreadsSteps

/-!
# Operations that do everything under the lock

A guarded program acquires the lock first, issues all its commands while it
holds it, and after the release only replies.  Threads that run guarded
programs are never inside two commands at once, and every run of theirs is
serial.
-/

namespace CommandProgram

namespace Program

variable {I : Interface} {α β State : Type}

/-- Commands, one release and then nothing but the reply. -/
def Enclosed : Program I α → Prop
  | .done _ => False
  | .acquire _ => False
  | .release next => ∃ value, next = .done value
  | .call _ next => ∀ answer, (next answer).Enclosed

/-- The lock is acquired before anything else happens. -/
def Guarded : Program I α → Prop
  | .done _ => False
  | .acquire next => next.Enclosed
  | .release _ => False
  | .call _ _ => False

theorem Uses.enclosed {Allowed : I.Command → Prop} {body : Program I α}
    (uses : body.Uses Allowed) :
    (body >>= fun value => .release (.done value)).Enclosed := by
  induction body with
  | done value => exact ⟨value, rfl⟩
  | acquire next => exact uses.elim
  | release next => exact uses.elim
  | call command next ih => exact fun answer => ih answer (uses.2 answer)

theorem Uses.guarded_locked {Allowed : I.Command → Prop} {body : Program I α}
    (uses : body.Uses Allowed) : (locked body).Guarded :=
  uses.enclosed

theorem Enclosed.map {program : Program I α} (enclosed : program.Enclosed)
    (function : α → β) :
    (program >>= fun value => .done (function value)).Enclosed := by
  induction program with
  | done value => exact enclosed.elim
  | acquire next => exact enclosed.elim
  | release next =>
      obtain ⟨value, rfl⟩ := enclosed
      exact ⟨function value, rfl⟩
  | call command next ih => exact fun answer => ih answer (enclosed answer)

/-- Working on the reply alone keeps a program guarded. -/
theorem Guarded.map {program : Program I α} (guarded : program.Guarded)
    (function : α → β) :
    (program >>= fun value => .done (function value)).Guarded := by
  cases program with
  | done value => exact guarded.elim
  | acquire next =>
      have enclosed : next.Enclosed := guarded
      exact enclosed.map function
  | release next => exact guarded.elim
  | call command next => exact guarded.elim

theorem Enclosed.section {program : Program I α} (enclosed : program.Enclosed) :
    program.Section := by
  induction program with
  | done value => exact enclosed.elim
  | acquire next => exact enclosed.elim
  | release next =>
      obtain ⟨value, rfl⟩ := enclosed
      trivial
  | call command next ih => exact fun answer => ih answer (enclosed answer)

theorem Guarded.opening {program : Program I α} (guarded : program.Guarded)
    (handle : Handler I State) (Possible : State → Prop) :
    program.Opening handle Possible := by
  cases program with
  | done value => exact guarded.elim
  | acquire next =>
      have enclosed : next.Enclosed := guarded
      exact enclosed.section
  | release next => exact guarded.elim
  | call command next => exact guarded.elim

end Program

namespace Pool

variable {I : Interface} {Thread Op Reply State : Type}

/-- Where a thread that runs guarded programs can be: before the lock, holding
it, or finished with everything but returning. -/
def Confined (holder : Option Thread) (thread : Thread) :
    Op × Option Nat × Program I Reply → Prop
  | (_, none, rest) => rest.Guarded
  | (_, some _, rest) =>
      (holder = some thread ∧ rest.Enclosed) ∨ ∃ reply, rest = .done reply

/-- Every thread is confined. -/
def Exclusive (pool : Pool I Thread Op Reply State) : Prop :=
  ∀ thread pending, (pool.activity thread).pending = some pending →
    Confined pool.holder thread pending

variable {system : System I Thread Op Reply State}
  {pool : Pool I Thread Op Reply State} {thread : Thread}

theorem Exclusive.holder_of_inside (exclusive : Exclusive pool)
    {operation : Op} {entry : Option Nat} {command : I.Command}
    {next : I.Answer command → Program I Reply}
    (inCall : pool.activity thread = .inside operation entry command next) :
    pool.holder = some thread := by
  have confined := exclusive thread (operation, entry, .call command next) (by
    rw [inCall]
    rfl)
  cases entry with
  | none => exact confined.elim
  | some index =>
      rcases confined with ⟨held, _⟩ | ⟨reply, isDone⟩
      · exact held
      · exact absurd isDone (by simp)

/-- No two threads are inside commands. -/
theorem Exclusive.inside_unique (exclusive : Exclusive pool)
    {first second : Thread} (firstInside : pool.Inside first)
    (secondInside : pool.Inside second) : first = second := by
  obtain ⟨_, _, _, _, firstCall⟩ := firstInside
  obtain ⟨_, _, _, _, secondCall⟩ := secondInside
  have firstHolds := exclusive.holder_of_inside firstCall
  rw [exclusive.holder_of_inside secondCall] at firstHolds
  exact (Option.some.inj firstHolds).symm

/-- When the lock is free, a thread that has had it has only its reply left. -/
theorem Exclusive.done_of_free (exclusive : Exclusive pool)
    (free : pool.holder = none) {operation : Op} {index : Nat}
    {rest : Program I Reply}
    (pending : (pool.activity thread).pending = some (operation, some index, rest)) :
    ∃ reply, rest = .done reply := by
  rcases exclusive thread _ pending with ⟨held, _⟩ | isDone
  · rw [free] at held
    simp at held
  · exact isDone

theorem exclusive_initial (state : State) :
    Exclusive (initial state : Pool I Thread Op Reply State) := by
  intro thread pending isPending
  simp [initial, Activity.pending] at isPending

/-- Threads that run guarded programs are always quiet. -/
theorem Exclusive.quiet (exclusive : Exclusive pool) (Possible : State → Prop) :
    pool.Quiet system Possible thread := by
  intro _ _ _ _ free other _ operation entry rest pending
  obtain ⟨reply, rfl⟩ := exclusive.done_of_free free pending
  trivial

variable [DecidableEq Thread]

/-- The activity of one thread changes and the lock changes hands in a way
that no other thread notices. -/
theorem Exclusive.become (exclusive : Exclusive pool)
    {after : Pool I Thread Op Reply State} {activity : Activity I Op Reply}
    (afterActivity : after.activity =
      Function.update pool.activity thread activity)
    (sameHolder : ∀ other ≠ thread, pool.holder = some other →
      after.holder = some other)
    (ok : ∀ pending, activity.pending = some pending →
      Confined after.holder thread pending) :
    Exclusive after := by
  intro other pending otherPending
  rw [afterActivity] at otherPending
  by_cases same : other = thread
  · subst other
    rw [Function.update_self] at otherPending
    exact ok pending otherPending
  · rw [Function.update_of_ne same] at otherPending
    have confined := exclusive other pending otherPending
    obtain ⟨operation, entry, rest⟩ := pending
    cases entry with
    | none => exact confined
    | some index =>
        rcases confined with ⟨held, enclosed⟩ | isDone
        · exact Or.inl ⟨sameHolder other same held, enclosed⟩
        · exact Or.inr isDone

theorem Exclusive.transition {after : Pool I Thread Op Reply State}
    (guarded : ∀ operation, (system.program operation).Guarded)
    (exclusive : Exclusive pool) (moved : Transition system thread pool after) :
    Exclusive after := by
  cases moved with
  | @start operation idle chosen =>
      refine exclusive.become rfl (fun _ _ held => held) ?_
      intro pending isPending
      obtain rfl := Option.some.inj isPending
      exact guarded operation
  | finish atEnd =>
      refine exclusive.become rfl (fun _ _ held => held) ?_
      intro pending isPending
      simp [Activity.pending] at isPending
  | @acquire operation entry next atLock free =>
      have confined := exclusive thread (operation, entry, .acquire next) (by
        rw [atLock]
        rfl)
      refine exclusive.become rfl ?_ ?_
      · intro other _ held
        rw [free] at held
        simp at held
      · intro pending isPending
        obtain rfl := Option.some.inj isPending
        cases entry with
        | none => exact Or.inl ⟨rfl, confined⟩
        | some index =>
            rcases confined with ⟨_, enclosed⟩ | ⟨reply, isDone⟩
            · exact enclosed.elim
            · exact absurd isDone (by simp)
  | @release operation entry next atUnlock held =>
      have confined := exclusive thread (operation, entry, .release next) (by
        rw [atUnlock]
        rfl)
      refine exclusive.become rfl ?_ ?_
      · intro other different otherHolds
        rw [held] at otherHolds
        exact absurd (Option.some.inj otherHolds).symm different
      · intro pending isPending
        obtain rfl := Option.some.inj isPending
        cases entry with
        | none => exact confined.elim
        | some index =>
            rcases confined with ⟨_, enclosed⟩ | ⟨reply, isDone⟩
            · exact Or.inr enclosed
            · exact absurd isDone (by simp)
  | @enter operation entry command next atCall =>
      refine exclusive.become rfl (fun _ _ held => held) ?_
      intro pending isPending
      apply exclusive thread
      rw [atCall]
      exact isPending
  | @leave operation entry command next inCall =>
      have confined := exclusive thread (operation, entry, .call command next) (by
        rw [inCall]
        rfl)
      refine exclusive.become rfl (fun _ _ held => held) ?_
      intro pending isPending
      obtain rfl := Option.some.inj isPending
      cases entry with
      | none => exact confined.elim
      | some index =>
          rcases confined with ⟨held, enclosed⟩ | ⟨reply, isDone⟩
          · exact Or.inl ⟨held, enclosed _⟩
          · exact absurd isDone (by simp)

/-- Threads that run guarded programs keep each other out of their commands. -/
theorem exclusive_of_reaches {state : State}
    (guarded : ∀ operation, (system.program operation).Guarded)
    {allowed : Thread → Pool I Thread Op Reply State → Prop}
    (reaches : Reaches system allowed (initial state) pool) :
    Exclusive pool :=
  reaches.invariant (exclusive_initial state)
    fun exclusive _ moved => exclusive.transition guarded moved

/-- Every run of guarded programs is serial. -/
theorem serialized_of_guarded {state : State}
    (guarded : ∀ operation, (system.program operation).Guarded)
    {allowed : Thread → Pool I Thread Op Reply State → Prop}
    (reaches : Reaches system allowed (initial state) pool) :
    ∃ current, Serialized system (fun _ => True) state pool current := by
  let Invariant : Pool I Thread Op Reply State → Prop := fun pool =>
    Exclusive pool ∧
      ∃ current, Serialized system (fun _ => True) state pool current
  have start : Invariant (initial state) :=
    ⟨exclusive_initial state, none, serialized_initial trivial⟩
  have holds : Invariant pool := by
    apply reaches.invariant start
    intro thread before after holds _ moved
    refine ⟨holds.1.transition guarded moved, ?_⟩
    exact Serialized.transition holds.2 (fun _ _ _ => trivial)
      (fun operation => (guarded operation).opening _ _) (holds.1.quiet _) moved
  exact holds.2

end Pool

end CommandProgram
