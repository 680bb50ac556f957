import Jib.QuickJSPublicOperations
import Jib.SoloRuns

/-!
# Threads that share one QuickJS runtime

A runtime is a heap of which nothing is known, the pending exception, and the
mutable fields of `Jib`.  The engine may answer a command in any way that
depends on the heap; when its answer is a failure it has thrown a value.  Any
number of threads issue any public operations.
-/

namespace Jib.QuickJS

open CommandProgram Program

/-- The answers with which an engine function says that it threw. -/
def Failed : (command : Command) → Answer command → Bool
  | .jsEval .., value => value.isException
  | .jsCall .., value => value.isException
  | .jsJSONStringify .., value => value.isException
  | .jsNewCFunctionMagic .., value => value.isException
  | .jsNewArray, value => value.isException
  | .jsArrayPush .., value => value.isException
  | .jsNewStringLen _, value => value.isException
  | .jsNewBigUint64 _, value => value.isException
  | .jsToCString _, utf8 => utf8.isNone
  | .jsSetProperty .., assigned => !assigned
  | _, _ => false

/-- The engine: what a call answers, what it does to the heap, and the value
it throws if it fails. -/
structure Engine (Heap : Type) where
  perform : (command : Command) → Heap → Answer command × Heap
  thrown : Command → Heap → Option JSValue
  thrown_isSome : ∀ command heap,
    (thrown command heap).isSome = Failed command (perform command heap).1

/-- One runtime and its `Jib`.  `thrown` records every value thrown so far. -/
structure Runtime (Heap : Type) where
  heap : Heap
  currentException : JSValue
  exception : Option Bytes
  customFunctions : List JibFunction
  thrown : List JSValue

variable {Heap : Type} (engine : Engine Heap)

/-- An engine call.  A thrown value becomes the pending exception. -/
def engineCall (command : Command) (runtime : Runtime Heap) :
    Answer command × Runtime Heap :=
  ((engine.perform command runtime.heap).1,
    { runtime with
      heap := (engine.perform command runtime.heap).2
      currentException :=
        (engine.thrown command runtime.heap).getD runtime.currentException
      thrown := runtime.thrown ++ (engine.thrown command runtime.heap).toList })

/-- The environment in which operations run. -/
def handle : Handler interface (Runtime Heap)
  | .jsGetException, runtime =>
      (runtime.currentException, { runtime with currentException := .null })
  | .setException text, runtime => ((), { runtime with exception := some text })
  | .appendCustomFunction function, runtime =>
      ((), { runtime with
        customFunctions := runtime.customFunctions ++ [function] })
  | command, runtime => engineCall engine command runtime

/-- Threads that issue public operations on a `Jib` whose global object is
`global`. -/
def threads {D Thread : Type} (global : JSValue)
    (client : Thread → List (Reply D) → Option (PublicOperation D)) :
    System interface Thread (PublicOperation D) (Reply D) (Runtime Heap) where
  handle := handle engine
  program := PublicOperation.program global
  client := client

/-- The text that is recorded for `value` when the heap is `heap`. -/
def exceptionText (heap : Heap) (value : JSValue) : Bytes :=
  match (engine.perform (.jsToCString value) heap).1 with
  | some utf8 => cString utf8
  | none => unknownException

/-- `value` was thrown between the states `start` and `state`. -/
def ThrownSince (start state : Runtime Heap) (value : JSValue) : Prop :=
  ∃ own, state.thrown = start.thrown ++ own ∧ value ∈ own

/-- A text is stored only for a value that was thrown since `start`. -/
def StoresOwn (start state : Runtime Heap) : Command → Prop
  | .setException text =>
      ∃ value heap, ThrownSince start state value ∧
        text = exceptionText engine heap value
  | _ => True

/-- The thrown values only grow. -/
def Extends (start state : Runtime Heap) : Prop :=
  ∃ own, state.thrown = start.thrown ++ own

theorem Extends.refl (start : Runtime Heap) : Extends start start :=
  ⟨[], by simp⟩

theorem Extends.trans {first second third : Runtime Heap}
    (before : Extends first second) (after : Extends second third) :
    Extends first third := by
  obtain ⟨own, extended⟩ := before
  obtain ⟨more, extendedAgain⟩ := after
  exact ⟨own ++ more, by rw [extendedAgain, extended, List.append_assoc]⟩

theorem ThrownSince.extend {start state later : Runtime Heap} {value : JSValue}
    (since : ThrownSince start state value) (after : Extends state later) :
    ThrownSince start later value := by
  obtain ⟨own, extended, member⟩ := since
  obtain ⟨more, extendedAgain⟩ := after
  refine ⟨own ++ more, ?_, by simp [member]⟩
  rw [extendedAgain, extended, List.append_assoc]

theorem Extends.thrownSince {start state later : Runtime Heap} {value : JSValue}
    (before : Extends start state) (since : ThrownSince state later value) :
    ThrownSince start later value := by
  obtain ⟨own, extended⟩ := before
  obtain ⟨more, extendedAgain, member⟩ := since
  refine ⟨own ++ more, ?_, by simp [member]⟩
  rw [extendedAgain, extended, List.append_assoc]

/-! ## What commands do to the pending exception -/

variable {engine}

theorem handle_plain {command : Command} (plain : command.isPlain = true)
    (runtime : Runtime Heap) :
    handle engine command runtime = engineCall engine command runtime := by
  cases command <;> first | rfl | cases plain

theorem extends_handle (command : Command) (runtime : Runtime Heap) :
    Extends runtime (handle engine command runtime).2 := by
  cases command <;> first | exact ⟨_, rfl⟩ | exact Extends.refl runtime

theorem extends_run {α : Type} (program : Operation α) (runtime : Runtime Heap) :
    Extends runtime (program.run (handle engine) runtime).2 := by
  induction program generalizing runtime with
  | done value => exact Extends.refl runtime
  | acquire next ih => exact ih runtime
  | release next ih => exact ih runtime
  | call command next ih => exact (extends_handle command runtime).trans (ih _ _)

theorem thrownSince_of_failed (command : Command) (plain : command.isPlain = true)
    {runtime : Runtime Heap}
    (failed : Failed command (handle engine command runtime).1 = true) :
    ThrownSince runtime (handle engine command runtime).2
      (handle engine command runtime).2.currentException := by
  rw [handle_plain plain] at failed ⊢
  have isThrown : (engine.thrown command runtime.heap).isSome = true := by
    rw [engine.thrown_isSome]
    exact failed
  obtain ⟨value, thrown⟩ := Option.isSome_iff_exists.mp isThrown
  refine ⟨[value], ?_, ?_⟩ <;> simp [engineCall, thrown]

/-- Giving a value back changes neither the pending exception nor what has
been thrown. -/
theorem handle_jsFreeValue (engine : Engine Heap) (value : JSValue) (runtime : Runtime Heap) :
    (handle engine (.jsFreeValue value) runtime).2.currentException =
        runtime.currentException ∧
      (handle engine (.jsFreeValue value) runtime).2.thrown = runtime.thrown := by
  have notThrown : engine.thrown (.jsFreeValue value) runtime.heap = none := by
    rw [← Option.not_isSome_iff_eq_none, engine.thrown_isSome]
    simp [Failed]
  simp [handle, engineCall, notThrown]

theorem run_freeValues (engine : Engine Heap) (values : List JSValue) (runtime : Runtime Heap) :
    ((forEach jsFreeValue values).run (handle engine) runtime).2.currentException =
        runtime.currentException ∧
      ((forEach jsFreeValue values).run (handle engine) runtime).2.thrown =
        runtime.thrown := by
  induction values generalizing runtime with
  | nil => exact ⟨rfl, rfl⟩
  | cons value rest ih =>
      obtain ⟨pending, thrown⟩ := handle_jsFreeValue engine value runtime
      obtain ⟨restPending, restThrown⟩ :=
        ih (handle engine (.jsFreeValue value) runtime).2
      exact ⟨restPending.trans pending, restThrown.trans thrown⟩

/-! ## Operations store their own exceptions -/

theorem always_plain {α : Type} {program : Operation α} (plain : Plain program)
    (start state : Runtime Heap) :
    program.Always (handle engine) (StoresOwn engine start) state := by
  induction program generalizing state with
  | done value => trivial
  | acquire next => exact plain.elim
  | release next => exact plain.elim
  | call command next ih =>
      refine ⟨?_, ih _ (plain.2 _) _⟩
      have isPlain : command.isPlain = true := plain.1
      cases command <;> trivial

theorem run_exceptionHitch (value : JSValue) (state : Runtime Heap) :
    ((exceptionHitch value).run (handle engine) state).1 =
      exceptionText engine state.heap value := by
  have answer : (handle engine (.jsToCString value) state).1 =
      (engine.perform (.jsToCString value) state.heap).1 := rfl
  simp only [exceptionHitch, exceptionText, jsToCString, call_bind, done_bind, run_call]
  rw [answer]
  cases (engine.perform (.jsToCString value) state.heap).1 <;> rfl

/-- What is recorded is the text of the exception pending at the time. -/
theorem always_recordException {start state : Runtime Heap}
    (since : ThrownSince start state state.currentException) :
    recordException.Always (handle engine) (StoresOwn engine start) state := by
  simp only [recordException, jsGetException, setException, jsFreeValue, call_bind,
    done_bind, pure_eq_done, always_call, always_bind, always_done]
  refine ⟨trivial, always_plain (reading_exceptionHitch _).plain start _, ?_, trivial, trivial⟩
  rw [run_exceptionHitch]
  exact ⟨_, _, since.extend (extends_run (exceptionHitch _) _), rfl⟩

theorem always_recordIf {start state : Runtime Heap} {value : JSValue}
    (since : value.isException = true →
      ThrownSince start state state.currentException) :
    (recordIf value).Always (handle engine) (StoresOwn engine start) state := by
  unfold recordIf
  split
  · rename_i isException
    exact always_recordException (since isException)
  · trivial

theorem always_callConverted {start state : Runtime Heap}
    (before : Extends start state) (function : JibFunction)
    (convertedArgs : List JSValue) :
    (callConverted function convertedArgs).Always (handle engine)
      (StoresOwn engine start) state := by
  let command : Command := .jsCall function.functionValueRef .undefined convertedArgs
  let called := handle engine command state
  let freed := (forEach jsFreeValue convertedArgs).run (handle engine) called.2
  obtain ⟨samePending, sameThrown⟩ :=
    run_freeValues engine convertedArgs called.2
  have since : called.1.isException = true →
      ThrownSince start freed.2 freed.2.currentException := by
    intro failed
    have thrown : ThrownSince state called.2 called.2.currentException :=
      thrownSince_of_failed command rfl failed
    rw [samePending]
    exact (before.thrownSince thrown).extend ⟨[], by simp [freed, sameThrown]⟩
  simp only [callConverted, jsCall, call_bind, done_bind, always_bind, always_call]
  refine ⟨trivial, ?_, always_recordIf since, ?_⟩
  · exact always_plain (Uses.forEach (fun _ => by simp) _) start _
  · split <;> trivial

theorem always_callJSValue (function : JibFunction)
    (arguments : List (Option JibUnknown)) (start : Runtime Heap) :
    (callJSValue function arguments).Always (handle engine)
      (StoresOwn engine start) start := by
  let converted := (mapEach convertArgument arguments).run (handle engine) start
  have checked : checkConverted arguments.length converted.1.length = .done () :=
    if_pos (length_run_mapEach (handle engine) convertArgument arguments start).symm
  simp only [callJSValue, always_bind]
  refine ⟨always_plain (Quiet.plain (Uses.mapEach quiet_convertArgument arguments)) start start, ?_⟩
  change (checkConverted arguments.length converted.1.length).Always _ _ converted.2 ∧
    (callConverted function converted.1).Always _ _
      ((checkConverted arguments.length converted.1.length).run _ converted.2).2
  rw [checked]
  exact ⟨trivial, always_callConverted (extends_run _ start) function converted.1⟩

/-- Once the value is there, converting it and giving it back store nothing. -/
theorem always_typedCall {α : Type} {convert : JSValue → Operation (Option α)}
    (reading : ∀ value, Reading (convert value)) (function : JibFunction)
    (arguments : List (Option JibUnknown)) (start : Runtime Heap) :
    (typedCall convert function arguments).Always (handle engine)
      (StoresOwn engine start) start := by
  simp only [typedCall, always_locked, always_bind]
  refine ⟨always_callJSValue function arguments start, ?_⟩
  apply always_plain
  split
  · exact (reading _).plain.bind fun _ => by simp
  · simp

theorem always_typedSubscript {α : Type}
    {convert : JSValue → Operation (Option α)}
    (reading : ∀ value, Reading (convert value)) (exec : HalfHitch)
    (start : Runtime Heap) :
    (typedSubscript convert exec).Always (handle engine)
      (StoresOwn engine start) start := by
  simp only [typedSubscript, always_locked]
  apply always_plain
  apply (plain_resolve exec).bind
  intro value
  cases value with
  | none => simp
  | some value => exact (reading value).plain.bind fun _ => by simp

theorem always_eval (script : HalfHitch) (start : Runtime Heap) :
    (eval script).Always (handle engine) (StoresOwn engine start) start := by
  simp only [eval, always_locked, evalScript]
  cases script.nullTerminated.raw with
  | none => trivial
  | some memory =>
      let command : Command := .jsEval memory script.nullTerminated.count
      have since : (handle engine command start).1.isException = true →
          ThrownSince start (handle engine command start).2
            (handle engine command start).2.currentException :=
        thrownSince_of_failed command rfl
      simp only [jsEval, jsFreeValue, call_bind, done_bind, pure_eq_done, always_call,
        always_bind]
      refine ⟨trivial, always_recordIf since, trivial, ?_⟩
      split <;> trivial

theorem always_assignGlobal {start state : Runtime Heap}
    (before : Extends start state) (global : JSValue) (atom : Atom)
    (value : JSValue) :
    (assignGlobal global atom value).Always (handle engine)
      (StoresOwn engine start) state := by
  let command : Command := .jsSetProperty global atom value
  have since : (handle engine command state).1 = false →
      ThrownSince start (handle engine command state).2
        (handle engine command state).2.currentException := by
    intro notAssigned
    refine before.thrownSince (thrownSince_of_failed command rfl ?_)
    simp [command, Failed, notAssigned]
  simp only [assignGlobal, jsSetProperty, call_bind, done_bind, always_call]
  refine ⟨trivial, ?_⟩
  split
  · trivial
  · rename_i notAssigned
    exact always_recordException (since (by simpa using notAssigned))

theorem always_setGlobal (global : JSValue) (name : HalfHitch) (value : JSValue)
    (start : Runtime Heap) :
    (setGlobal global name value).Always (handle engine)
      (StoresOwn engine start) start := by
  simp only [setGlobal, jsNewAtom, jsFreeAtom, call_bind, done_bind, pure_eq_done,
    always_locked, always_call, always_bind]
  exact ⟨trivial, always_assignGlobal (extends_handle _ start) global _ value,
    trivial, trivial⟩

theorem always_newFunction (name : HalfHitch) (body : JibFunctionBody)
    (start : Runtime Heap) :
    (newFunction name body).Always (handle engine) (StoresOwn engine start) start := by
  simp [newFunction, makeJibFunction, StoresOwn]

/-- Every public operation stores only exceptions that it has thrown. -/
theorem always_program {D : Type} (global : JSValue) (operation : PublicOperation D)
    (start : Runtime Heap) :
    (operation.program global).Always (handle engine) (StoresOwn engine start) start := by
  cases operation with
  | eval script => exact (always_bind _ _ _).mpr ⟨always_eval script start, trivial⟩
  | setGlobal name value =>
      exact (always_bind _ _ _).mpr ⟨always_setGlobal global name value start, trivial⟩
  | setGlobalFunction name value =>
      exact (always_bind _ _ _).mpr ⟨always_setGlobal global name _ start, trivial⟩
  | newFunction name body =>
      exact (always_bind _ _ _).mpr ⟨always_newFunction name body start, trivial⟩
  | garbageCollect => exact ⟨trivial, trivial⟩
  | subscript reader exec =>
      obtain ⟨_, _, _, conversion⟩ := reader.conversion
      rw [PublicOperation.program, conversion.subscript, always_bind]
      exact ⟨always_typedSubscript conversion.reading exec start, trivial⟩
  | call reader function arguments =>
      obtain ⟨_, _, _, conversion⟩ := reader.conversion
      rw [PublicOperation.program, conversion.call, always_bind]
      exact ⟨always_typedCall conversion.reading function arguments start, trivial⟩
  | callNone function arguments =>
      have callNone : (QuickJS.callNone function arguments).Always (handle engine)
          (StoresOwn engine start) start :=
        always_typedCall (fun _ => by simp) function arguments start
      exact (always_bind _ _ _).mpr ⟨callNone, trivial⟩

/-! ## Atomicity -/

variable {D Thread : Type}

/-- What atomicity says of a reachable pool. -/
structure Atomic (engine : Engine Heap) (global : JSValue)
    (client : Thread → List (Reply D) → Option (PublicOperation D))
    (start : Runtime Heap)
    (pool : Pool interface Thread (PublicOperation D) (Reply D) (Runtime Heap)) :
    Prop where
  /-- No two threads are inside engine calls at once. -/
  exclusive : ∀ first second, pool.Inside first → pool.Inside second → first = second
  /-- A text is stored by an operation that has the lock and has thrown the
  value whose text it is. -/
  own_exception : ∀ thread operation entry text next,
    pool.activity thread = .inside operation entry (.setException text) next →
      ∃ index, entry = some index ∧ pool.log[index]? = some (thread, operation) ∧
        ∃ value heap,
          ThrownSince ((threads engine global client).serialState start
            (pool.log.take index)) pool.state value ∧
          text = exceptionText engine heap value
  /-- Every reply is the one of the serial run. -/
  reply : ∀ thread, ∀ record ∈ pool.completed thread,
    Pool.CompletedSerially (threads engine global client) start pool.log thread record
  /-- The final state is the one of the serial run. -/
  state : (∀ thread, pool.activity thread = .idle) →
    pool.state = (threads engine global client).serialState start pool.log

/-- The public operations are atomic: in every run of any threads, what can be
observed is what the serial run shows that takes the operations in the order
in which they acquired the lock. -/
theorem operations_atomic [DecidableEq Thread] (engine : Engine Heap)
    (global : JSValue)
    (client : Thread → List (Reply D) → Option (PublicOperation D))
    (start : Runtime Heap)
    {pool : Pool interface Thread (PublicOperation D) (Reply D) (Runtime Heap)}
    (reaches : Pool.Reaches (threads engine global client) (fun _ _ => True)
      (.initial start) pool) :
    Atomic engine global client start pool := by
  have guarded : ∀ operation,
      ((threads engine global client).program operation).Guarded :=
    PublicOperation.guarded_program global
  have exclusive := Pool.exclusive_of_reaches guarded reaches
  obtain ⟨current, serialized⟩ := Pool.serialized_of_guarded guarded reaches
  refine ⟨fun _ _ => exclusive.inside_unique, ?_, serialized.completed, ?_⟩
  · intro thread operation entry text next inCall
    exact Pool.always_of_reaches guarded (always_program global) reaches inCall
  · intro allIdle
    exact exclusive.state_eq serialized (serialized.free_of_idle allIdle)

/-- An engine without a heap that throws `undefined` whenever it fails. -/
def constantEngine (evaluated : JSValue) : Engine Unit where
  perform command _ := (constantAnswer evaluated command, ())
  thrown command _ :=
    if Failed command (constantAnswer evaluated command) then some .undefined else none
  thrown_isSome command _ := by split <;> simp_all

/-- One thread evaluates a script, the other collects garbage. -/
def evalBesideCollect : Bool → List (Reply Unit) → Option (PublicOperation Unit)
  | true, [] => some (.eval (.ofBytes [120]))
  | false, [] => some .garbageCollect
  | _, _ => none

/-- The script throws, and its exception is recorded while the other thread
waits for the lock. -/
theorem operations_atomic_waiting :
    ∃ pool, Pool.runSchedule
        (threads (constantEngine .exception) .undefined evalBesideCollect)
        ([true, false] ++ List.replicate 14 true ++ [false, false, false, false, true, false])
        (.initial ⟨(), .null, none, [], []⟩) = some pool ∧
      Atomic (constantEngine .exception) .undefined evalBesideCollect
        ⟨(), .null, none, [], []⟩ pool := by
  have runs : (Pool.runSchedule
      (threads (constantEngine .exception) .undefined evalBesideCollect)
      ([true, false] ++ List.replicate 14 true ++ [false, false, false, false, true, false])
      (.initial ⟨(), .null, none, [], []⟩)).isSome = true := rfl
  obtain ⟨pool, ran⟩ := Option.isSome_iff_exists.mp runs
  exact ⟨pool, ran, operations_atomic _ _ _ _ (Pool.reaches_of_runSchedule ran)⟩

end Jib.QuickJS
