import Jib.CommandProgram
import Mathlib.Tactic.ByContra

/-!
# Operations that are called back

One thread runs operations.  While the environment serves a command it may run
any callback, a program over the same interface and the same lock, which may
issue commands that run further callbacks.  The lock is not recursive: a
thread that tries to acquire it while holding it never goes on.
-/

namespace CommandProgram

namespace Program

variable {I : Interface} {α β : Type}

/-- No path of the program touches the lock. -/
def NeverLocks (program : Program I α) : Prop :=
  program.Uses fun _ => True

/-- Every path takes the lock and gives it back in turn.  `held` says whether
the program holds it. -/
def Alternates : Bool → Program I α → Prop
  | held, .done _ => held = false
  | held, .acquire next => held = false ∧ next.Alternates true
  | held, .release next => held = true ∧ next.Alternates false
  | held, .call _ next => ∀ answer, (next answer).Alternates held

/-- Some answers lead to an attempt to acquire the lock. -/
def ReachesAcquire : Program I α → Prop
  | .done _ => False
  | .acquire _ => True
  | .release _ => False
  | .call _ next => ∃ answer, (next answer).ReachesAcquire

/-- Some answers lead to a command that satisfies `Target` while the lock is
held. -/
def ReachesInside (Target : I.Command → Prop) : Bool → Program I α → Prop
  | _, .done _ => False
  | _, .acquire next => next.ReachesInside Target true
  | _, .release next => next.ReachesInside Target false
  | held, .call command next =>
      (held = true ∧ Target command) ∨
        ∃ answer, (next answer).ReachesInside Target held

theorem NeverLocks.alternates {program : Program I α}
    (never : program.NeverLocks) : program.Alternates false := by
  induction program with
  | done value => rfl
  | acquire next => exact never.elim
  | release next => exact never.elim
  | call command next ih => exact fun answer => ih answer (never.2 answer)

theorem neverLocks_map (program : Program I α) (function : α → β) :
    (program >>= fun value => .done (function value)).NeverLocks ↔
      program.NeverLocks := by
  refine ⟨?_, fun never => Uses.bind never fun _ => trivial⟩
  intro never
  induction program with
  | done value => trivial
  | acquire next => exact never.elim
  | release next => exact never.elim
  | call command next ih => exact ⟨trivial, fun answer => ih answer (never.2 answer)⟩

theorem Alternates.bind {program : Program I α} {continuation : α → Program I β}
    {held : Bool} (alternates : program.Alternates held)
    (rest : ∀ value, (continuation value).Alternates false) :
    (program >>= continuation).Alternates held := by
  induction program generalizing held with
  | done value =>
      obtain rfl : held = false := alternates
      exact rest value
  | acquire next ih => exact ⟨alternates.1, ih alternates.2⟩
  | release next ih => exact ⟨alternates.1, ih alternates.2⟩
  | call command next ih => exact fun answer => ih answer (alternates answer)

theorem alternates_locked {Allowed : I.Command → Prop} {body : Program I α}
    (uses : body.Uses Allowed) : (locked body).Alternates false := by
  refine ⟨rfl, ?_⟩
  induction body with
  | done value => exact ⟨rfl, rfl⟩
  | acquire next => exact uses.elim
  | release next => exact uses.elim
  | call command next ih => exact fun answer => ih answer (uses.2 answer)

/-- A program that takes the lock in turn and has a path that touches it has a
path that acquires it first. -/
theorem Alternates.reachesAcquire {program : Program I α}
    (alternates : program.Alternates false) (locks : ¬ program.NeverLocks) :
    program.ReachesAcquire := by
  induction program with
  | done value => exact absurd trivial locks
  | acquire next => trivial
  | release next => cases alternates.1
  | call command next ih =>
      by_contra noPath
      apply locks
      refine ⟨trivial, ?_⟩
      intro answer
      by_contra locksAfter
      exact noPath ⟨answer, ih answer (alternates answer) locksAfter⟩

end Program

/-- A client performs operations and uses their replies. -/
inductive Client (Op Reply α : Type) : Type
  | done (value : α)
  | perform (operation : Op) (next : Reply → Client Op Reply α)

namespace Client

variable {I : Interface} {Op Reply α : Type}

/-- The commands that a client issues. -/
def program (operations : Op → Program I Reply) :
    Client Op Reply α → Program I α
  | .done value => .done value
  | .perform operation next =>
      operations operation >>= fun reply => (next reply).program operations

theorem alternates {operations : Op → Program I Reply}
    (alternate : ∀ operation, (operations operation).Alternates false)
    (client : Client Op Reply α) :
    (client.program operations).Alternates false := by
  induction client with
  | done value => rfl
  | perform operation next ih => exact (alternate operation).bind ih

end Client

/-- What one thread can do: start operations, and be called back by commands
that satisfy `Reenters`. -/
structure Nesting (I : Interface) (Op Callback : Type) where
  operation : Op → Program I Unit
  callback : Callback → Program I Unit
  Reenters : I.Command → Prop

/-- The lock, and the programs in progress with the innermost first.  Each of
the outer ones waits for the answer to a command. -/
structure Nested (I : Interface) where
  held : Bool
  frames : List (Program I Unit)

namespace Nested

variable {I : Interface} {Op Callback : Type}

/-- Nothing is in progress. -/
def idle : Nested I := ⟨false, []⟩

/-- The innermost program is about to acquire the lock, which is held. -/
def SelfBlocked (nested : Nested I) : Prop :=
  nested.held = true ∧ ∃ next outer, nested.frames = .acquire next :: outer

inductive Step (nesting : Nesting I Op Callback) : Nested I → Nested I → Prop
  | start (operation : Op) {held} :
      Step nesting ⟨held, []⟩ ⟨held, [nesting.operation operation]⟩
  | answer {held command next outer} (answer : I.Answer command) :
      Step nesting ⟨held, .call command next :: outer⟩ ⟨held, next answer :: outer⟩
  | callback (callback : Callback) {held command next outer}
      (reenters : nesting.Reenters command) :
      Step nesting ⟨held, .call command next :: outer⟩
        ⟨held, nesting.callback callback :: .call command next :: outer⟩
  | finish {held outer} : Step nesting ⟨held, .done () :: outer⟩ ⟨held, outer⟩
  | acquire {next outer} :
      Step nesting ⟨false, .acquire next :: outer⟩ ⟨true, next :: outer⟩
  | release {held next outer} :
      Step nesting ⟨held, .release next :: outer⟩ ⟨false, next :: outer⟩

def Reaches (nesting : Nesting I Op Callback) : Nested I → Nested I → Prop :=
  Relation.ReflTransGen (Step nesting)

/-- Only the outermost program touches the lock. -/
inductive Orderly : Nested I → Prop
  | idle : Orderly ⟨false, []⟩
  | outermost {held program} (alternates : program.Alternates held) :
      Orderly ⟨held, [program]⟩
  | inner {held program outer} (never : program.NeverLocks)
      (orderly : Orderly ⟨held, outer⟩) (notEmpty : outer ≠ []) :
      Orderly ⟨held, program :: outer⟩

theorem Orderly.not_selfBlocked {nested : Nested I} (orderly : Orderly nested) :
    ¬ nested.SelfBlocked := by
  rintro ⟨held, next, outer, frames⟩
  cases orderly with
  | idle => cases held
  | outermost alternates =>
      cases frames
      cases held
      cases alternates.1
  | inner never orderly notEmpty =>
      cases frames
      exact never

theorem Orderly.step {nesting : Nesting I Op Callback}
    (alternate : ∀ operation, (nesting.operation operation).Alternates false)
    (never : ∀ callback, (nesting.callback callback).NeverLocks)
    {before after : Nested I} (orderly : Orderly before)
    (moved : Step nesting before after) : Orderly after := by
  cases moved with
  | start operation =>
      cases orderly
      exact .outermost (alternate operation)
  | answer answer =>
      cases orderly with
      | outermost alternates => exact .outermost (alternates answer)
      | inner never orderly notEmpty => exact .inner (never.2 answer) orderly notEmpty
  | callback callback reenters =>
      exact .inner (never callback) orderly (by simp)
  | finish =>
      cases orderly with
      | outermost alternates =>
          cases alternates
          exact .idle
      | inner never orderly notEmpty => exact orderly
  | acquire =>
      cases orderly with
      | outermost alternates => exact .outermost alternates.2
      | inner never => exact never.elim
  | release =>
      cases orderly with
      | outermost alternates => exact .outermost alternates.2
      | inner never => exact never.elim

theorem not_selfBlocked_of_reaches {nesting : Nesting I Op Callback}
    (alternate : ∀ operation, (nesting.operation operation).Alternates false)
    (never : ∀ callback, (nesting.callback callback).NeverLocks)
    {nested : Nested I} (reaches : Reaches nesting idle nested) :
    ¬ nested.SelfBlocked := by
  have orderly : Orderly nested := by
    induction reaches with
    | refl => exact .idle
    | tail _ moved ih => exact ih.step alternate never moved
  exact orderly.not_selfBlocked

/-! ## A callback that acquires the lock -/

variable {nesting : Nesting I Op Callback}

/-- A program that reaches a command inside the lock gets there. -/
theorem reaches_inside {Target : I.Command → Prop} {held : Bool}
    {program : Program I Unit} (alternates : program.Alternates held)
    (inside : program.ReachesInside Target held) :
    ∃ command next, Target command ∧
      Reaches nesting ⟨held, [program]⟩ ⟨true, [.call command next]⟩ := by
  induction program generalizing held with
  | done value => exact inside.elim
  | acquire next ih =>
      obtain ⟨command, rest, target, reaches⟩ := ih alternates.2 inside
      obtain rfl : held = false := alternates.1
      exact ⟨command, rest, target, reaches.head .acquire⟩
  | release next ih =>
      obtain ⟨command, rest, target, reaches⟩ := ih alternates.2 inside
      exact ⟨command, rest, target, reaches.head .release⟩
  | call command next ih =>
      rcases inside with ⟨rfl, target⟩ | ⟨answer, inside⟩
      · exact ⟨command, next, target, .refl⟩
      · obtain ⟨command, rest, target, reaches⟩ := ih answer (alternates answer) inside
        exact ⟨command, rest, target, reaches.head (.answer answer)⟩

/-- A program that can reach `acquire` gets there under the lock of another. -/
theorem reaches_acquire {program : Program I Unit} (acquires : program.ReachesAcquire)
    (held : Bool) (outer : List (Program I Unit)) :
    ∃ next, Reaches nesting ⟨held, program :: outer⟩ ⟨held, .acquire next :: outer⟩ := by
  induction program with
  | done value => exact acquires.elim
  | acquire next => exact ⟨next, .refl⟩
  | release next => exact acquires.elim
  | call command next ih =>
      obtain ⟨answer, acquires⟩ := acquires
      obtain ⟨rest, reaches⟩ := ih answer acquires
      exact ⟨rest, reaches.head (.answer answer)⟩

/-- An operation that can be called back inside the lock and a callback that
acquires it make a thread block on itself. -/
theorem exists_selfBlocked {operation : Op} {callback : Callback}
    (alternates : (nesting.operation operation).Alternates false)
    (inside : (nesting.operation operation).ReachesInside nesting.Reenters false)
    (acquires : (nesting.callback callback).ReachesAcquire) :
    ∃ nested, Reaches nesting idle nested ∧ nested.SelfBlocked := by
  obtain ⟨command, next, reenters, entered⟩ := reaches_inside alternates inside
  obtain ⟨rest, blocked⟩ := reaches_acquire acquires true [.call command next]
  have called : Reaches nesting idle
      ⟨true, nesting.callback callback :: [.call command next]⟩ :=
    (entered.head (.start operation)).tail (.callback callback reenters)
  exact ⟨_, called.trans blocked, rfl, rest, _, rfl⟩

/-- A thread never blocks on itself exactly when no callback can touch the
lock. -/
theorem never_selfBlocked_iff_neverLocks {operation : Op}
    (alternate : ∀ operation, (nesting.operation operation).Alternates false)
    (alternateBack : ∀ callback, (nesting.callback callback).Alternates false)
    (inside : (nesting.operation operation).ReachesInside nesting.Reenters false) :
    (∀ nested, Reaches nesting idle nested → ¬ nested.SelfBlocked) ↔
      ∀ callback, (nesting.callback callback).NeverLocks := by
  constructor
  · intro neverBlocked callback
    by_contra locks
    obtain ⟨nested, reaches, blocked⟩ := exists_selfBlocked (alternate operation) inside
      ((alternateBack callback).reachesAcquire locks)
    exact neverBlocked nested reaches blocked
  · intro never nested reaches
    exact not_selfBlocked_of_reaches alternate never reaches

end Nested

end CommandProgram
