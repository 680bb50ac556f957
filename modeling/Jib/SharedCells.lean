import Mathlib.Data.List.Basic
import Mathlib.Logic.Function.Basic
import Mathlib.Order.Basic
import Mathlib.Order.Nat

/-!
# Cells that calls hand out

Calls hand out references to mutable cells, and whoever is given a cell may
change it.  What a call has content for goes to a fresh cell; for what it has
none it hands out one constant cell, which all calls share.
-/

namespace SharedCells

variable {Call World Content : Type}

/-- What a call hands out; `none` stands for the constant. -/
abbrev Supply (Call World Content : Type) :=
  Call → World → List (Option Content) × World

/-- The contents of the cells, of which 0 is the constant and those from `next`
on are unused, and the cells that each call so far has been given. -/
structure State (World Content : Type) where
  world : World
  content : Nat → Content
  next : Nat
  given : List (List Nat)

namespace State

def initial (world : World) (default : Content) : State World Content :=
  ⟨world, fun _ => default, 1, []⟩

/-- A client writes to a cell. -/
def write (state : State World Content) (cell : Nat) (content : Content) :
    State World Content :=
  { state with content := Function.update state.content cell content }

def allocate (state : State World Content) (content : Content) : State World Content :=
  { state.write state.next content with next := state.next + 1 }

/-- The cells for what a call hands out. -/
def place : List (Option Content) → State World Content → List Nat × State World Content
  | [], state => ([], state)
  | none :: rest, state =>
      let others := place rest state
      (0 :: others.1, others.2)
  | some content :: rest, state =>
      let others := place rest (state.allocate content)
      (state.next :: others.1, others.2)

def hand (supply : Supply Call World Content) (call : Call) (state : State World Content) :
    State World Content :=
  let supplied := supply call state.world
  let placed := place supplied.1 { state with world := supplied.2 }
  { placed.2 with given := placed.1 :: state.given }

/-- Some call has been given the cell. -/
def Held (state : State World Content) (cell : Nat) : Prop :=
  ∃ cells ∈ state.given, cell ∈ cells

/-- The constant holds what it held at first, and no two calls share a cell. -/
def Intact (default : Content) (state : State World Content) : Prop :=
  state.content 0 = default ∧ state.given.Pairwise List.Disjoint

end State

open State

/-- States after calls, each made where a condition holds, after writes of
clients to cells that they were given, and after the world has gone on. -/
inductive Reaches (supply : Supply Call World Content) (Condition : Call → World → Prop)
    (start : State World Content) : State World Content → Prop
  | start : Reaches supply Condition start start
  | world {state : State World Content} (reaches : Reaches supply Condition start state)
      (world : World) : Reaches supply Condition start { state with world }
  | call {state : State World Content} (reaches : Reaches supply Condition start state)
      (call : Call) (meets : Condition call state.world) :
      Reaches supply Condition start (state.hand supply call)
  | write {state : State World Content} (reaches : Reaches supply Condition start state)
      {cell : Nat} (held : state.Held cell) (content : Content) :
      Reaches supply Condition start (state.write cell content)

/-- States after writes of clients only. -/
inductive Written (start : State World Content) : State World Content → Prop
  | start : Written start start
  | write {state : State World Content} (written : Written start state) {cell : Nat}
      (held : state.Held cell) (content : Content) : Written start (state.write cell content)

/-- The call has content for all that it hands out. -/
def Complete (supply : Supply Call World Content) (call : Call) (world : World) : Prop :=
  none ∉ (supply call world).1

/-- `read` gives the contents that calls hand out, and the constant's for those
that they lack. -/
def ReadAs (supply : Supply Call World Content) (default : Content)
    (read : Call → World → List Content × World) : Prop :=
  ∀ call world, read call world =
    ((supply call world).1.map fun content => content.getD default, (supply call world).2)

/-- After calls that had content for everything, the constant is as it was and
calls share no cell; what the next call hands out reads as its contents; and it
keeps the constant from clients if and only if it too has content for everything. -/
def KeepsConstant (supply : Supply Call World Content) (default : Content) : Prop :=
  ∀ world state, Reaches supply (Complete supply) (State.initial world default) state →
    state.Intact default ∧ ∀ call,
      (∃ cells, (state.hand supply call).given = cells :: state.given ∧
        cells.map (state.hand supply call).content =
          (supply call state.world).1.map fun content => content.getD default) ∧
      ((∀ after, Written (state.hand supply call) after → after.Intact default) ↔
        Complete supply call state.world)

/-! ## Placing -/

section Place

variable {state : State World Content}

theorem next_le_place (contents : List (Option Content)) (state : State World Content) :
    state.next ≤ (place contents state).2.next := by
  induction contents generalizing state with
  | nil => exact le_rfl
  | cons content rest ih =>
      cases content with
      | none => exact ih state
      | some content => exact (Nat.le_succ state.next).trans (ih (state.allocate content))

/-- Cells that were in use keep their contents. -/
theorem content_place_of_lt {cell : Nat} (contents : List (Option Content))
    (used : cell < state.next) : (place contents state).2.content cell = state.content cell := by
  induction contents generalizing state with
  | nil => rfl
  | cons content rest ih =>
      cases content with
      | none => exact ih used
      | some content =>
          apply (@ih (state.allocate content) (Nat.lt_succ_of_lt used)).trans
          exact Function.update_of_ne used.ne _ _

/-- What is handed out reads as its content, and as the constant where it has
none. -/
theorem map_content_place (contents : List (Option Content)) (positive : 0 < state.next) :
    (place contents state).1.map (place contents state).2.content =
      contents.map fun content => content.getD (state.content 0) := by
  induction contents generalizing state with
  | nil => rfl
  | cons content rest ih =>
      cases content with
      | none =>
          rw [place, List.map_cons, List.map_cons, ih positive,
            content_place_of_lt rest positive]
          rfl
      | some content =>
          have others := @ih (state.allocate content) (Nat.succ_pos _)
          have here := @content_place_of_lt _ _ (state.allocate content) state.next rest
            (Nat.lt_succ_self _)
          have constant : (state.allocate content).content 0 = state.content 0 :=
            Function.update_of_ne positive.ne _ _
          rw [place, List.map_cons, List.map_cons, others, here, constant]
          exact congrArg (· :: _) (Function.update_self ..)

theorem mem_place_of_none {contents : List (Option Content)} (missing : none ∈ contents)
    (state : State World Content) : 0 ∈ (place contents state).1 := by
  induction contents generalizing state with
  | nil => cases missing
  | cons content rest ih =>
      cases content with
      | none => exact List.mem_cons_self
      | some content =>
          apply List.mem_cons_of_mem
          apply ih
          simpa using missing

/-- Where everything has content only fresh cells are handed out. -/
theorem fresh_of_mem_place {cell : Nat} {contents : List (Option Content)}
    (complete : none ∉ contents) (member : cell ∈ (place contents state).1) :
    state.next ≤ cell ∧ cell < (place contents state).2.next := by
  induction contents generalizing state with
  | nil => cases member
  | cons content rest ih =>
      cases content with
      | none => exact (complete List.mem_cons_self).elim
      | some content =>
          have grows := next_le_place rest (state.allocate content)
          rcases List.mem_cons.mp member with rfl | member
          · exact ⟨le_rfl, grows⟩
          · obtain ⟨low, high⟩ := ih (fun missing => complete (by simp [missing])) member
            exact ⟨(Nat.le_succ state.next).trans low, high⟩

end Place

/-! ## Runs -/

/-- The constant is as it was and out of reach, and calls do not share cells. -/
structure Sound (default : Content) (state : State World Content) : Prop where
  constant : state.content 0 = default
  positive : 0 < state.next
  cells : ∀ cell, state.Held cell → 0 < cell ∧ cell < state.next
  apart : state.given.Pairwise List.Disjoint

variable {supply : Supply Call World Content} {default : Content}
  {state : State World Content}

theorem Sound.intact (sound : Sound default state) : state.Intact default :=
  ⟨sound.constant, sound.apart⟩

theorem sound_initial (world : World) (default : Content) :
    Sound default (State.initial world default) where
  constant := rfl
  positive := Nat.one_pos
  cells := by simp [State.initial, State.Held]
  apart := .nil

theorem Sound.write (sound : Sound default state) {cell : Nat} (held : state.Held cell)
    (content : Content) : Sound default (state.write cell content) where
  constant := by
    rw [← sound.constant]
    exact Function.update_of_ne (sound.cells cell held).1.ne _ _
  positive := sound.positive
  cells := sound.cells
  apart := sound.apart

/-- A call that has content for everything keeps the constant out of reach. -/
theorem Sound.hand (sound : Sound default state) {call : Call}
    (complete : Complete supply call state.world) : Sound default (state.hand supply call) := by
  have grows := next_le_place (supply call state.world).1
    { state with world := (supply call state.world).2 }
  have fresh : ∀ cell ∈ (place (supply call state.world).1
      { state with world := (supply call state.world).2 }).1, _ :=
    fun cell member => fresh_of_mem_place complete member
  constructor
  · rw [← sound.constant]
    exact content_place_of_lt _ sound.positive
  · exact lt_of_lt_of_le sound.positive grows
  · rintro cell ⟨cells, member, isCell⟩
    rcases List.mem_cons.mp member with rfl | member
    · exact ⟨lt_of_lt_of_le sound.positive (fresh cell isCell).1, (fresh cell isCell).2⟩
    · obtain ⟨positive, used⟩ := sound.cells cell ⟨cells, member, isCell⟩
      exact ⟨positive, lt_of_lt_of_le used grows⟩
  · apply List.Pairwise.cons
    · intro cells member cell isNew isOld
      have used := (sound.cells cell ⟨cells, member, isOld⟩).2
      exact absurd (fresh cell isNew).1 (not_le_of_gt used)
    · exact sound.apart

theorem Reaches.sound {start : State World Content}
    (reaches : Reaches supply (Complete supply) start state)
    (atStart : Sound default start) : Sound default state := by
  induction reaches with
  | start => exact atStart
  | world _ world ih => exact ⟨ih.constant, ih.positive, ih.cells, ih.apart⟩
  | call _ call meets ih => exact ih.hand meets
  | write _ held content ih => exact ih.write held content

theorem Written.sound {start : State World Content} (written : Written start state)
    (atStart : Sound default start) : Sound default state := by
  induction written with
  | start => exact atStart
  | write _ held content ih => exact ih.write held content

/-- What a call hands out reads as its contents, with the constant's first content
for those that it lacks. -/
theorem Sound.map_content_hand (sound : Sound default state) (call : Call) :
    ∃ cells, (state.hand supply call).given = cells :: state.given ∧
      cells.map (state.hand supply call).content =
        (supply call state.world).1.map fun content => content.getD default := by
  refine ⟨_, rfl, ?_⟩
  rw [← sound.constant]
  exact map_content_place _ sound.positive

/-- After calls that had content for everything, clients can break the constant
exactly when a call lacks content. -/
theorem Sound.written_intact_iff (sound : Sound default state) {other : Content}
    (differs : other ≠ default) (call : Call) :
    (∀ after, Written (state.hand supply call) after → after.Intact default) ↔
      Complete supply call state.world := by
  constructor
  · intro intact missing
    have held : (state.hand supply call).Held 0 :=
      ⟨_, List.mem_cons_self, mem_place_of_none missing _⟩
    have broken := intact _ (Written.start.write held other)
    have written : ((state.hand supply call).write 0 other).content 0 = other := by
      simp [State.write]
    exact differs (written.symm.trans broken.1)
  · intro complete after written
    exact (written.sound (sound.hand complete)).intact

theorem keepsConstant (supply : Supply Call World Content) {default other : Content}
    (differs : other ≠ default) : KeepsConstant supply default := by
  intro world state reaches
  have sound := reaches.sound (sound_initial world default)
  refine ⟨sound.intact, ?_⟩
  intro call
  exact ⟨sound.map_content_hand call, sound.written_intact_iff differs call⟩

end SharedCells
