import Mathlib.Logic.Relation

/-!
# Programs over a command interface

A program issues one command at a time and continues with the answer.  The
interface says which commands there are and what type of answer each one has;
it says nothing about how they are answered.  The same program can therefore
be run against a deterministic handler, against a relation between states, or
as one thread among others.  One lock is built in: `acquire` and `release` act
on it and on nothing else.
-/

namespace CommandProgram

/-- The commands of an environment and the type of the answer to each. -/
structure Interface where
  Command : Type
  Answer : Command → Type

/-- A tree of commands that branches over every possible answer. -/
inductive Program (I : Interface) (α : Type) : Type
  | done (value : α)
  | acquire (next : Program I α)
  | release (next : Program I α)
  | call (command : I.Command) (next : I.Answer command → Program I α)

/-- A deterministic environment: the answer to a command in a state and the
state it leaves. -/
abbrev Handler (I : Interface) (State : Type) :=
  (command : I.Command) → State → I.Answer command × State

namespace Program

variable {I : Interface} {α β γ State : Type}

def bind : Program I α → (α → Program I β) → Program I β
  | .done value, continuation => continuation value
  | .acquire next, continuation => .acquire (next.bind continuation)
  | .release next, continuation => .release (next.bind continuation)
  | .call command next, continuation =>
      .call command fun answer => (next answer).bind continuation

instance : Monad (Program I) where
  pure := .done
  bind := bind

@[simp]
theorem pure_eq_done (value : α) : (pure value : Program I α) = .done value :=
  rfl

@[simp]
theorem done_bind (value : α) (continuation : α → Program I β) :
    (.done value : Program I α) >>= continuation = continuation value :=
  rfl

@[simp]
theorem acquire_bind (next : Program I α) (continuation : α → Program I β) :
    .acquire next >>= continuation = .acquire (next >>= continuation) :=
  rfl

@[simp]
theorem release_bind (next : Program I α) (continuation : α → Program I β) :
    .release next >>= continuation = .release (next >>= continuation) :=
  rfl

@[simp]
theorem call_bind (command : I.Command) (next : I.Answer command → Program I α)
    (continuation : α → Program I β) :
    .call command next >>= continuation =
      .call command fun answer => next answer >>= continuation :=
  rfl

theorem bind_done (program : Program I α) :
    program.bind .done = program := by
  induction program with
  | done value => rfl
  | acquire next ih => exact congrArg Program.acquire ih
  | release next ih => exact congrArg Program.release ih
  | call command next ih => exact congrArg (Program.call command) (funext ih)

theorem bind_bind (program : Program I α) (first : α → Program I β)
    (second : β → Program I γ) :
    (program.bind first).bind second =
      program.bind fun value => (first value).bind second := by
  induction program with
  | done value => rfl
  | acquire next ih => exact congrArg Program.acquire ih
  | release next ih => exact congrArg Program.release ih
  | call command next ih => exact congrArg (Program.call command) (funext ih)

instance : LawfulMonad (Program I) :=
  LawfulMonad.mk' (Program I) bind_done (fun _ _ => rfl) bind_bind

/-- Run `body` with the lock held, as `lock(); defer { unlock() }` does. -/
def locked (body : Program I α) : Program I α :=
  .acquire (body >>= fun value => .release (.done value))

/-- Run `body` on each element in order and collect the results. -/
def mapEach (body : α → Program I β) : List α → Program I (List β)
  | [] => .done []
  | element :: rest => do
      let first ← body element
      let others ← mapEach body rest
      return first :: others

/-- Run `body` on each element in order. -/
def forEach (body : α → Program I Unit) : List α → Program I Unit
  | [] => .done ()
  | element :: rest => do
      body element
      forEach body rest

/-! ## Running against a handler -/

/-- Run a program alone; the lock is always granted. -/
def run (handle : Handler I State) : Program I α → State → α × State
  | .done value, state => (value, state)
  | .acquire next, state => next.run handle state
  | .release next, state => next.run handle state
  | .call command next, state =>
      (next (handle command state).1).run handle (handle command state).2

@[simp]
theorem run_done (handle : Handler I State) (value : α) (state : State) :
    (Program.done value).run handle state = (value, state) :=
  rfl

@[simp]
theorem run_acquire (handle : Handler I State) (next : Program I α)
    (state : State) :
    (Program.acquire next).run handle state = next.run handle state :=
  rfl

@[simp]
theorem run_release (handle : Handler I State) (next : Program I α)
    (state : State) :
    (Program.release next).run handle state = next.run handle state :=
  rfl

@[simp]
theorem run_call (handle : Handler I State) (command : I.Command)
    (next : I.Answer command → Program I α) (state : State) :
    (Program.call command next).run handle state =
      (next (handle command state).1).run handle (handle command state).2 :=
  rfl

@[simp]
theorem run_bind (handle : Handler I State) (program : Program I α)
    (continuation : α → Program I β) (state : State) :
    (program >>= continuation).run handle state =
      (continuation (program.run handle state).1).run handle
        (program.run handle state).2 := by
  induction program generalizing state with
  | done value => rfl
  | acquire next ih => exact ih state
  | release next ih => exact ih state
  | call command next ih =>
      exact ih (handle command state).1 (handle command state).2

@[simp]
theorem run_locked (handle : Handler I State) (body : Program I α)
    (state : State) :
    (locked body).run handle state = body.run handle state := by
  simp [locked]

theorem run_mapEach_cons (handle : Handler I State) (body : α → Program I β) (element : α)
    (rest : List α) (state : State) :
    (mapEach body (element :: rest)).run handle state =
      (((body element).run handle state).1 ::
          ((mapEach body rest).run handle ((body element).run handle state).2).1,
        ((mapEach body rest).run handle ((body element).run handle state).2).2) := by
  simp [mapEach, pure_eq_done]

/-- There is one result for each element. -/
theorem length_run_mapEach (handle : Handler I State) (body : α → Program I β)
    (elements : List α) (state : State) :
    ((mapEach body elements).run handle state).1.length = elements.length := by
  induction elements generalizing state with
  | nil => rfl
  | cons element rest ih => simp [run_mapEach_cons, ih]

theorem run_forEach_cons (handle : Handler I State) (body : α → Program I Unit) (element : α)
    (rest : List α) (state : State) :
    (forEach body (element :: rest)).run handle state =
      (forEach body rest).run handle ((body element).run handle state).2 := by
  simp [forEach]

/-! ## The commands of a run -/

/-- What a program shows when it runs alone, as `look` finds it in each command
and the state in which the command is issued. -/
def shows {β : Type} (look : State → I.Command → Option β) (handle : Handler I State) :
    Program I α → State → List β
  | .done _, _ => []
  | .acquire next, state => next.shows look handle state
  | .release next, state => next.shows look handle state
  | .call command next, state =>
      (look state command).toList ++
        (next (handle command state).1).shows look handle (handle command state).2

section Shows

variable {δ : Type} {look : State → I.Command → Option δ} {handle : Handler I State}

@[simp]
theorem shows_done (value : α) (state : State) :
    (Program.done value : Program I α).shows look handle state = [] :=
  rfl

theorem shows_call (command : I.Command) (next : I.Answer command → Program I α)
    (state : State) :
    (Program.call command next).shows look handle state =
      (look state command).toList ++
        (next (handle command state).1).shows look handle (handle command state).2 :=
  rfl

theorem shows_bind (program : Program I α) (continuation : α → Program I β) (state : State) :
    (program >>= continuation).shows look handle state =
      program.shows look handle state ++
        (continuation (program.run handle state).1).shows look handle
          (program.run handle state).2 := by
  induction program generalizing state with
  | done value => rfl
  | acquire next ih => exact ih state
  | release next ih => exact ih state
  | call command next ih =>
      rw [call_bind, shows_call, shows_call, ih, List.append_assoc]
      rfl

@[simp]
theorem shows_locked (body : Program I α) (state : State) :
    (locked body).shows look handle state = body.shows look handle state := by
  change (body >>= fun value => .release (.done value)).shows look handle state = _
  rw [shows_bind]
  exact List.append_nil _

end Shows

/-! ## Programs that leave the lock alone -/

/-- No path of the program touches the lock, and every command on it is
`Allowed`. -/
def Uses (Allowed : I.Command → Prop) : Program I α → Prop
  | .done _ => True
  | .acquire _ => False
  | .release _ => False
  | .call command next => Allowed command ∧ ∀ answer, (next answer).Uses Allowed

variable {Allowed : I.Command → Prop}

@[simp]
theorem uses_done (value : α) :
    (Program.done value : Program I α).Uses Allowed :=
  trivial

@[simp]
theorem uses_call (command : I.Command)
    (next : I.Answer command → Program I α) :
    (Program.call command next).Uses Allowed ↔
      Allowed command ∧ ∀ answer, (next answer).Uses Allowed :=
  Iff.rfl

theorem Uses.bind {program : Program I α} {continuation : α → Program I β}
    (uses : program.Uses Allowed)
    (rest : ∀ value, (continuation value).Uses Allowed) :
    (program >>= continuation).Uses Allowed := by
  induction program with
  | done value => exact rest value
  | acquire next => exact uses.elim
  | release next => exact uses.elim
  | call command next ih =>
      exact ⟨uses.1, fun answer => ih answer (uses.2 answer)⟩

theorem Uses.mono {Wider : I.Command → Prop} {program : Program I α}
    (uses : program.Uses Allowed)
    (wider : ∀ command, Allowed command → Wider command) :
    program.Uses Wider := by
  induction program with
  | done value => trivial
  | acquire next => exact uses.elim
  | release next => exact uses.elim
  | call command next ih =>
      exact ⟨wider command uses.1, fun answer => ih answer (uses.2 answer)⟩

/-- What the commands of a program keep, a run of it keeps. -/
theorem Uses.run_keeps {Keeps : State → Prop} {program : Program I α}
    (uses : program.Uses Allowed) {handle : Handler I State}
    (keeps : ∀ command state, Allowed command → Keeps state → Keeps (handle command state).2)
    {state : State} (start : Keeps state) : Keeps (program.run handle state).2 := by
  induction program generalizing state with
  | done value => exact start
  | acquire next => exact uses.elim
  | release next => exact uses.elim
  | call command next ih => exact ih _ (uses.2 _) (keeps command state uses.1 start)

/-- A program that only uses commands with nothing to show shows nothing. -/
theorem Uses.shows_eq_nil {δ : Type} {look : State → I.Command → Option δ}
    {program : Program I α} (uses : program.Uses fun command => ∀ state, look state command = none)
    (handle : Handler I State) (state : State) : program.shows look handle state = [] := by
  induction program generalizing state with
  | done value => rfl
  | acquire next => exact uses.elim
  | release next => exact uses.elim
  | call command next ih =>
      rw [shows_call, uses.1, ih _ (uses.2 _)]
      rfl

theorem Uses.shows_eq_nil_of_command {δ : Type} {look : I.Command → Option δ}
    {program : Program I α} (uses : program.Uses fun command => look command = none)
    (handle : Handler I State) (state : State) : program.shows (fun _ => look) handle state = [] :=
  (uses.mono fun _ nothing _ => nothing).shows_eq_nil handle state

theorem Uses.mapEach {body : α → Program I β}
    (uses : ∀ element, (body element).Uses Allowed) (elements : List α) :
    (Program.mapEach body elements).Uses Allowed := by
  induction elements with
  | nil => trivial
  | cons element rest ih =>
      exact (uses element).bind fun _ => ih.bind fun _ => trivial

theorem Uses.forEach {body : α → Program I Unit}
    (uses : ∀ element, (body element).Uses Allowed) (elements : List α) :
    (Program.forEach body elements).Uses Allowed := by
  induction elements with
  | nil => trivial
  | cons element rest ih => exact (uses element).bind fun _ => ih

/-! ## Programs that issue only some commands -/

/-- Every command on every path is `Allowed`, whatever happens to the lock. -/
def Issues (Allowed : I.Command → Prop) : Program I α → Prop
  | .done _ => True
  | .acquire next => next.Issues Allowed
  | .release next => next.Issues Allowed
  | .call command next => Allowed command ∧ ∀ answer, (next answer).Issues Allowed

theorem Uses.issues {program : Program I α} (uses : program.Uses Allowed) :
    program.Issues Allowed := by
  induction program with
  | done value => trivial
  | acquire next => exact uses.elim
  | release next => exact uses.elim
  | call command next ih => exact ⟨uses.1, fun answer => ih answer (uses.2 answer)⟩

theorem Issues.bind {program : Program I α} {continuation : α → Program I β}
    (issues : program.Issues Allowed)
    (rest : ∀ value, (continuation value).Issues Allowed) :
    (program >>= continuation).Issues Allowed := by
  induction program with
  | done value => exact rest value
  | acquire next ih => exact ih issues
  | release next ih => exact ih issues
  | call command next ih =>
      exact ⟨issues.1, fun answer => ih answer (issues.2 answer)⟩

theorem Uses.issues_locked {body : Program I α} (uses : body.Uses Allowed) :
    (locked body).Issues Allowed :=
  uses.issues.bind fun _ => trivial

end Program

end CommandProgram
