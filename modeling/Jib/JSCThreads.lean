import Jib.JSCPublicOperations

/-!
# Threads that share one JavaScriptCore context

The engine is any handler; nothing is known of it but that the `Jib` is not
released.  A typed call gives the lock back before it converts its value, so
a run is serial as long as no thread takes the lock while another thread has a
conversion to do that depends on the state of the engine.
-/

namespace Jib.JSC

open CommandProgram Program

variable {D Thread State : Type}

/-- Threads that issue public operations on one `Jib`. -/
def threads (handle : Handler interface State) (jib : JibFields)
    (client : Thread → List (Reply D) → Option (PublicOperation D)) :
    System interface Thread (PublicOperation D) (Reply D) State where
  handle := handle
  program := PublicOperation.program jib
  client := client

/-- The `Jib` is not released, and reading that changes nothing. -/
def Unreleased (handle : Handler interface State) : Prop :=
  ∀ state, handle .readReleased state = (false, state)

/-- Whenever a thread takes the lock, every other thread that has had it for
its operation has no conversion left that reads or changes the state. -/
def ConversionsSettled (handle : Handler interface State) (jib : JibFields)
    (client : Thread → List (Reply D) → Option (PublicOperation D))
    (thread : Thread)
    (pool : Pool interface Thread (PublicOperation D) (Reply D) State) : Prop :=
  pool.Quiet (threads handle jib client) (fun _ => True) thread

/-- What atomicity says of a reachable pool. -/
structure Atomic (handle : Handler interface State) (jib : JibFields)
    (client : Thread → List (Reply D) → Option (PublicOperation D))
    (start : State)
    (pool : Pool interface Thread (PublicOperation D) (Reply D) State) : Prop where
  /-- Every reply is the one of the serial run. -/
  reply : ∀ thread, ∀ record ∈ pool.completed thread,
    Pool.CompletedSerially (threads handle jib client) start pool.log thread record
  /-- The final state is the one of the serial run. -/
  state : (∀ thread, pool.activity thread = .idle) →
    pool.state = (threads handle jib client).serialState start pool.log

/-- An unreleased `Jib` lets every operation go on to the lock. -/
theorem Shaped.opening {α : Type} {program : Operation α} (shaped : Shaped program)
    {handle : Handler interface State} (unreleased : Unreleased handle) :
    program.Opening handle (fun _ => True) := by
  obtain ⟨_, absent, body, rest, free, restFree, _, rfl⟩ := shaped
  refine ⟨false, fun state _ => unreleased state, ?_⟩
  exact free.opening_locked fun value => (restFree value).tail

/-- In every run in which conversions are settled before the lock is taken
again, the public operations are atomic. -/
theorem operations_atomic_of_turns [DecidableEq Thread]
    {handle : Handler interface State} (unreleased : Unreleased handle)
    (jib : JibFields)
    (client : Thread → List (Reply D) → Option (PublicOperation D)) (start : State)
    {pool : Pool interface Thread (PublicOperation D) (Reply D) State}
    (reaches : Pool.Reaches (threads handle jib client)
      (ConversionsSettled handle jib client) (.initial start) pool) :
    Atomic handle jib client start pool := by
  obtain ⟨current, serialized⟩ := Pool.serialized_of_reaches
    (fun _ _ _ => trivial)
    (fun operation => (operation.shaped_program jib).opening unreleased) trivial reaches
  refine ⟨serialized.completed, ?_⟩
  intro allIdle
  apply serialized.state_eq (serialized.free_of_idle allIdle)
  intro other operation entry rest pending
  rw [allIdle other] at pending
  cases pending

/-! ## A conversion that comes too late -/

/-- A context with one object, whose string is `"a"` until a script has run
and `"b"` afterwards. -/
def mutableObject : Handler interface Bool
  | .jsEvaluateScript _ _, _ => ((some 0, none), true)
  | .jsObjectCallAsFunction _ _ _, mutated => ((some 1, none), mutated)
  | .jsValueToStringCopy _ _, mutated =>
      (some ⟨0, if mutated then [98] else [97]⟩, mutated)
  | command, mutated => (emptyAnswer command, mutated)

/-- One thread calls a function that returns the object and wants its string,
the other evaluates a script. -/
def callBesideEval : Bool → List (Reply Unit) → Option (PublicOperation Unit)
  | true, [] => some (.call .hitch ⟨0, some 0, none⟩ [])
  | false, [] => some (.eval (.ofBytes [120]))
  | _, _ => none

/-- The call gives the lock back, the script runs, and then the call reads the
string of its result. -/
def lateConversion :
    Option (Pool interface Bool (PublicOperation Unit) (Reply Unit) Bool) :=
  Pool.runSchedule (threads mutableObject someJib callBesideEval)
    (List.replicate 7 true ++ List.replicate 12 false ++ List.replicate 9 true)
    (.initial false)

/-- The call returns the string of the object as the script has left it, while
in the order of the lock it comes before the script. -/
theorem call_not_atomic :
    ∃ pool, lateConversion = some pool ∧
      ¬ Atomic mutableObject someJib callBesideEval false pool := by
  have runs : lateConversion.isSome = true := rfl
  have completed : lateConversion.map (fun pool => pool.completed true) =
      some [⟨.call .hitch ⟨0, some 0, none⟩ [], some 0, .text (some [98])⟩] := rfl
  obtain ⟨pool, ran⟩ := Option.isSome_iff_exists.mp runs
  rw [ran] at completed
  have records : pool.completed true =
      [⟨.call .hitch ⟨0, some 0, none⟩ [], some 0, .text (some [98])⟩] :=
    Option.some.inj completed
  refine ⟨pool, ran, ?_⟩
  intro atomic
  obtain ⟨index, isEntry, _, reply⟩ :=
    atomic.reply true ⟨.call .hitch ⟨0, some 0, none⟩ [], some 0, .text (some [98])⟩
      (by simp [records])
  obtain rfl := Option.some.inj isEntry
  have serial : ((threads mutableObject someJib callBesideEval).serialRun false pool.log 0
      (.call .hitch ⟨0, some 0, none⟩ [])).1 = .text (some [97]) := rfl
  rw [serial] at reply
  cases reply

/-- The script waits for the lock while the call has it, and runs when the call has
converted its value but not returned. -/
def evalDuringCall : List Bool :=
  List.replicate 3 false ++ List.replicate 15 true ++ List.replicate 9 false ++
    List.replicate 1 true

theorem conversionsSettled_evalDuringCall {pool : Pool interface Bool _ _ Bool}
    (ran : Pool.runSchedule (threads mutableObject someJib callBesideEval) evalDuringCall
      (.initial false) = some pool) :
    Pool.Reaches (threads mutableObject someJib callBesideEval)
      (ConversionsSettled mutableObject someJib callBesideEval) (.initial false) pool := by
  apply Pool.Reaches.turn ran
  intro evaluated ran
  have evalIsDone : (Pool.runSchedule (threads mutableObject someJib callBesideEval)
      (List.replicate 3 false ++ List.replicate 15 true ++ List.replicate 9 false)
      (.initial false)).map (fun pool => pool.activity false) = some .idle := rfl
  refine ⟨Pool.Reaches.turn ran ?_, ?_⟩
  · intro called ran
    have callConverted : (Pool.runSchedule (threads mutableObject someJib callBesideEval)
        (List.replicate 3 false ++ List.replicate 15 true) (.initial false)).map
        (fun pool => (pool.activity true).pending) =
        some (some (.call .hitch ⟨0, some 0, none⟩ [], some 0, .done (.text (some [97])))) := rfl
    refine ⟨Pool.Reaches.turn ran ?_, ?_⟩
    · intro waiting ran
      have scriptWaits : (Pool.runSchedule (threads mutableObject someJib callBesideEval)
          (List.replicate 3 false) (.initial false)).map
          (fun pool => (pool.activity false).pending.map fun work => work.2.1) =
          some (some none) := rfl
      refine ⟨Pool.reaches_quiet_of_othersSettled ?_ ran, ?_⟩
      · intro other _ operation entry rest pending
        cases pending
      · intro other isOther operation entry rest pending
        obtain rfl : other = false := by simpa using isOther
        rw [ran, Option.map_some, pending] at scriptWaits
        cases scriptWaits
    · intro other isOther operation entry rest pending
      obtain rfl : other = true := by simpa using isOther
      rw [ran, Option.map_some, pending, Option.some.injEq, Option.some.injEq] at callConverted
      cases callConverted
      trivial
  · intro other isOther operation entry rest pending
    obtain rfl : other = false := by simpa using isOther
    rw [ran] at evalIsDone
    have isIdle : evaluated.activity false = .idle := Option.some.inj evalIsDone
    rw [isIdle] at pending
    cases pending

/-- With conversions settled the same operations are atomic: the call returns
the string that it found. -/
theorem operations_atomic_of_turns_call :
    ∃ pool, Pool.runSchedule (threads mutableObject someJib callBesideEval) evalDuringCall
        (.initial false) = some pool ∧
      pool.log = [(true, .call .hitch ⟨0, some 0, none⟩ []), (false, .eval (.ofBytes [120]))] ∧
      pool.state = true ∧
      pool.completed true =
        [⟨.call .hitch ⟨0, some 0, none⟩ [], some 0, .text (some [97])⟩] ∧
      Atomic mutableObject someJib callBesideEval false pool := by
  have ends : (Pool.runSchedule (threads mutableObject someJib callBesideEval) evalDuringCall
      (.initial false)).map (fun pool => (pool.log, pool.state, pool.completed true)) =
      some ([(true, .call .hitch ⟨0, some 0, none⟩ []), (false, .eval (.ofBytes [120]))], true,
        [⟨.call .hitch ⟨0, some 0, none⟩ [], some 0, .text (some [97])⟩]) := rfl
  obtain ⟨pool, ran, last⟩ := Option.map_eq_some_iff.mp ends
  obtain ⟨log, state, completed⟩ := Prod.mk.inj last |>.imp_right Prod.mk.inj
  exact ⟨pool, ran, log, state, completed, operations_atomic_of_turns (fun _ => rfl) someJib
    callBesideEval false (conversionsSettled_evalDuringCall ran)⟩

end Jib.JSC
