import Jib.LockedThreads

/-!
# Operations on one lock are serial

An operation acquires the lock once and may issue commands before it and
after it.  Before the lock it may issue only commands whose answer does not
depend on the state.  What is left of it after the lock is settled once it
issues only such commands.  If no thread acquires the lock while another
thread still has unsettled commands after its own release, every reply and
the final state are those of the operations run one after another in the
order in which they acquired the lock.
-/

namespace CommandProgram

namespace Program

variable {I : Interface} {α State : Type}

/-- After the lock has been released: commands, then the reply. -/
def Tail : Program I α → Prop
  | .done _ => True
  | .acquire _ => False
  | .release _ => False
  | .call _ next => ∀ answer, (next answer).Tail

/-- While the lock is held: commands up to the one release. -/
def Section : Program I α → Prop
  | .done _ => False
  | .acquire _ => False
  | .release next => next.Tail
  | .call _ next => ∀ answer, (next answer).Section

/-- The states that `Possible` describes never influence the answer to
`command`, and the command leaves them as they are. -/
def Constant (handle : Handler I State) (Possible : State → Prop)
    (command : I.Command) (answer : I.Answer command) : Prop :=
  ∀ state, Possible state → handle command state = (answer, state)

/-- Before the lock: constant commands only, then the lock. -/
def Opening (handle : Handler I State) (Possible : State → Prop) :
    Program I α → Prop
  | .done _ => False
  | .acquire next => next.Section
  | .release _ => False
  | .call command next =>
      ∃ answer, Constant handle Possible command answer ∧
        (next answer).Opening handle Possible

/-- Nothing that is left of the program reads or changes the state. -/
def Settled (handle : Handler I State) (Possible : State → Prop) :
    Program I α → Prop
  | .done _ => True
  | .acquire _ => False
  | .release _ => False
  | .call command next =>
      ∃ answer, Constant handle Possible command answer ∧
        (next answer).Settled handle Possible

variable {handle : Handler I State} {Possible : State → Prop}
  {Allowed : I.Command → Prop} {β : Type}

theorem Uses.tail {program : Program I α} (uses : program.Uses Allowed) :
    program.Tail := by
  induction program with
  | done value => trivial
  | acquire next => exact uses.elim
  | release next => exact uses.elim
  | call command next ih => exact fun answer => ih answer (uses.2 answer)

theorem Uses.section {body : Program I α} {rest : α → Program I β}
    (uses : body.Uses Allowed) (tail : ∀ value, (rest value).Tail) :
    (body >>= fun value => .release (rest value)).Section := by
  induction body with
  | done value => exact tail value
  | acquire next => exact uses.elim
  | release next => exact uses.elim
  | call command next ih => exact fun answer => ih answer (uses.2 answer)

/-- A body under the lock, and then commands without it. -/
theorem Uses.opening_locked {body : Program I α} {rest : α → Program I β}
    (uses : body.Uses Allowed) (tail : ∀ value, (rest value).Tail) :
    (locked body >>= rest).Opening handle Possible := by
  have flattened : (body >>= fun value => .release (.done value)) >>= rest =
      body >>= fun value => .release (rest value) :=
    bind_assoc body (fun value => .release (.done value)) rest
  change ((body >>= fun value => .release (.done value)) >>= rest).Section
  rw [flattened]
  exact uses.section tail

/-- A constant command has one answer, whatever the state. -/
theorem Constant.answer_eq {command : I.Command} {answer : I.Answer command}
    (constant : Constant handle Possible command answer) {state : State}
    (possible : Possible state) : (handle command state).1 = answer := by
  rw [constant state possible]

theorem Constant.state_eq {command : I.Command} {answer : I.Answer command}
    (constant : Constant handle Possible command answer) {state : State}
    (possible : Possible state) : (handle command state).2 = state := by
  rw [constant state possible]

theorem Settled.call_answer {command : I.Command}
    {next : I.Answer command → Program I α}
    (settled : (Program.call command next).Settled handle Possible)
    {state : State} (possible : Possible state) :
    (next (handle command state).1).Settled handle Possible ∧
      (handle command state).2 = state := by
  obtain ⟨answer, constant, rest⟩ := settled
  rw [constant.answer_eq possible]
  exact ⟨rest, constant.state_eq possible⟩

theorem Opening.call_answer {command : I.Command}
    {next : I.Answer command → Program I α}
    (opening : (Program.call command next).Opening handle Possible)
    {state : State} (possible : Possible state) :
    (next (handle command state).1).Opening handle Possible ∧
      (handle command state).2 = state ∧
        ∀ other, Possible other →
          (next (handle command state).1).run handle other =
            (Program.call command next).run handle other := by
  obtain ⟨answer, constant, rest⟩ := opening
  rw [constant.answer_eq possible]
  refine ⟨rest, constant.state_eq possible, ?_⟩
  intro other otherPossible
  rw [run_call, constant other otherPossible]

/-- A settled program has one reply and leaves every state as it is. -/
theorem Settled.run_eq {program : Program I α}
    (settled : program.Settled handle Possible) :
    ∃ reply, ∀ state, Possible state →
      program.run handle state = (reply, state) := by
  induction program with
  | done value => exact ⟨value, fun _ _ => rfl⟩
  | acquire next => exact settled.elim
  | release next => exact settled.elim
  | call command next ih =>
      obtain ⟨answer, constant, rest⟩ := settled
      obtain ⟨reply, runs⟩ := ih answer rest
      refine ⟨reply, ?_⟩
      intro state possible
      rw [run_call, constant state possible]
      exact runs state possible

end Program

namespace System

variable {I : Interface} {Thread Op Reply State : Type}

/-- The state after the logged operations have run one after another. -/
def serialState (system : System I Thread Op Reply State) (state : State)
    (log : List (Thread × Op)) : State :=
  log.foldl
    (fun current entry =>
      ((system.program entry.2).run system.handle current).2) state

/-- Reply and final state of the operation at a position of the log when the
log is run one operation after another. -/
def serialRun (system : System I Thread Op Reply State) (state : State)
    (log : List (Thread × Op)) (index : Nat) (operation : Op) : Reply × State :=
  (system.program operation).run system.handle
    (system.serialState state (log.take index))

theorem serialState_append (system : System I Thread Op Reply State)
    (state : State) (log : List (Thread × Op)) (thread : Thread) (operation : Op) :
    system.serialState state (log ++ [(thread, operation)]) =
      ((system.program operation).run system.handle
        (system.serialState state log)).2 := by
  simp [serialState]

theorem serialRun_append (system : System I Thread Op Reply State)
    (state : State) (log : List (Thread × Op)) (entry : Thread × Op)
    {index : Nat} (bound : index ≤ log.length) (operation : Op) :
    system.serialRun state (log ++ [entry]) index operation =
      system.serialRun state log index operation := by
  rw [serialRun, serialRun, List.take_append_of_le_length bound]

/-- Running the last entry of the log reaches the state of the whole log. -/
theorem serialRun_last (system : System I Thread Op Reply State)
    (state : State) {log : List (Thread × Op)} {index : Nat} {thread : Thread}
    {operation : Op} (last : index + 1 = log.length)
    (entry : log[index]? = some (thread, operation)) :
    (system.serialRun state log index operation).2 =
      system.serialState state log := by
  have split : log = log.take index ++ [(thread, operation)] := calc
    log = log.take (index + 1) := by rw [last, List.take_length]
    _ = log.take index ++ [(thread, operation)] := by
      rw [List.take_add_one, entry]
      rfl
  calc
    (system.serialRun state log index operation).2 =
        system.serialState state (log.take index ++ [(thread, operation)]) := by
      rw [serialState_append, serialRun]
    _ = system.serialState state log := by rw [← split]

end System

namespace Pool

variable {I : Interface} {Thread Op Reply State : Type}

/-- Every other thread that has had the lock is settled. -/
def OthersSettled (system : System I Thread Op Reply State)
    (Possible : State → Prop) (thread : Thread)
    (pool : Pool I Thread Op Reply State) : Prop :=
  ∀ other ≠ thread, ∀ operation entry rest,
    (pool.activity other).pending = some (operation, some entry, rest) →
      rest.Settled system.handle Possible

/-- A thread acquires the lock only when every other thread that has had it is
settled. -/
def Quiet (system : System I Thread Op Reply State) (Possible : State → Prop)
    (thread : Thread) (pool : Pool I Thread Op Reply State) : Prop :=
  ∀ operation entry next,
    pool.activity thread = .running operation entry (.acquire next) →
      pool.holder = none → pool.OthersSettled system Possible thread

/-- A completed operation has had the lock and returned what it returns in the
serial run. -/
def CompletedSerially (system : System I Thread Op Reply State) (first : State)
    (log : List (Thread × Op)) (thread : Thread) (record : Completed Op Reply) :
    Prop :=
  ∃ index, record.entry = some index ∧
    log[index]? = some (thread, record.operation) ∧
      record.reply = (system.serialRun first log index record.operation).1

/-- What is known of a thread that does not act on the state at the moment. -/
def PassiveOk (system : System I Thread Op Reply State)
    (Possible : State → Prop) (first : State) (log : List (Thread × Op))
    (thread : Thread) : Op × Option Nat × Program I Reply → Prop
  | (operation, none, rest) =>
      rest.Opening system.handle Possible ∧
        ∀ state, Possible state →
          rest.run system.handle state =
            (system.program operation).run system.handle state
  | (operation, some index, rest) =>
      rest.Settled system.handle Possible ∧
        log[index]? = some (thread, operation) ∧
          ∀ state, Possible state →
            (rest.run system.handle state).1 =
              (system.serialRun first log index operation).1

/-- What is known of the one thread that acts on the state: it is the last to
have acquired the lock, and finishing it alone finishes the serial run. -/
structure ActiveOk (system : System I Thread Op Reply State) (first : State)
    (pool : Pool I Thread Op Reply State) (thread : Thread) (operation : Op)
    (index : Nat) (rest : Program I Reply) : Prop where
  last : index + 1 = pool.log.length
  entry : pool.log[index]? = some (thread, operation)
  shape : (pool.holder = some thread ∧ rest.Section) ∨
    (pool.holder = none ∧ rest.Tail)
  run_eq : rest.run system.handle pool.state =
    system.serialRun first pool.log index operation

/-- The serialization invariant.  `current` is the thread that acts on the
state, if there is one. -/
structure Serialized (system : System I Thread Op Reply State)
    (Possible : State → Prop) (first : State)
    (pool : Pool I Thread Op Reply State) (current : Option Thread) : Prop where
  possible : Possible pool.state
  completed : ∀ thread, ∀ record ∈ pool.completed thread,
    CompletedSerially system first pool.log thread record
  passive : ∀ thread, current ≠ some thread →
    ∀ pending, (pool.activity thread).pending = some pending →
      PassiveOk system Possible first pool.log thread pending
  active : ∀ thread, current = some thread →
    ∃ operation index rest,
      (pool.activity thread).pending = some (operation, some index, rest) ∧
        ActiveOk system first pool thread operation index rest
  holder : ∀ thread, pool.holder = some thread → current = some thread
  settled : current = none → pool.state = system.serialState first pool.log

end Pool

end CommandProgram
