import Jib.ProgramContracts
import Mathlib.Algebra.BigOperators.Group.List.Basic
import Mathlib.Algebra.Group.Pi.Basic
import Mathlib.Algebra.GroupWithZero.Nat
import Mathlib.Algebra.Order.Group.Nat
import Mathlib.Algebra.Order.Sub.Prod
import Mathlib.Algebra.Order.Sub.Basic

/-!
# Ledgers of resources

A ledger says which resources the answer to a command gives to the program and
which ones a command takes from it.  A program balances when no path of it takes
what it has not been given; resources that it does not know of stay as they are.
A run settles when this holds of the answers that it gets.
-/

namespace ResourceLedgers

open CommandProgram Program

variable {I : Interface} {R α β State : Type}

/-- How many of each resource there are. -/
abbrev Holdings (R : Type) := R → Nat

/-- What commands take and their answers give.  `Answers` is what is known of
answers, and only `Allowed` commands are issued. -/
structure Ledger (I : Interface) (R : Type) where
  takes : I.Command → Holdings R
  gives : (command : I.Command) → I.Answer command → Holdings R
  Answers : (command : I.Command) → I.Answer command → Prop
  Allowed : I.Command → Prop

namespace Ledger

variable (ledger : Ledger I R)

/-- What is in hand after a command. -/
def after (held : Holdings R) (command : I.Command) (answer : I.Answer command) : Holdings R :=
  held + ledger.gives command answer - ledger.takes command

def effect : Effect I (Holdings R) :=
  fun command before answer after =>
    ledger.Answers command answer ∧ after = ledger.after before command answer

/-- What a command takes is there. -/
def Ready (command : I.Command) (held : Holdings R) : Prop :=
  ledger.Allowed command ∧ ledger.takes command ≤ held

/-- Begun with `held` in hand, the program ends with what `post` says. -/
def Balances (held : Holdings R) (post : α → Holdings R → Prop) (program : Program I α) :
    Prop :=
  ∀ others, program.Satisfies ledger.effect ledger.Ready
    (fun value after => ∃ left, post value left ∧ after = others + left) (others + held)

/-- The run takes only what is in hand, and `last` is left at its end. -/
def Settles (handle : Handler I State) (last : Holdings R) :
    Program I α → State → Holdings R → Prop
  | .done _, _, held => held = last
  | .acquire next, state, held => Settles handle last next state held
  | .release next, state, held => Settles handle last next state held
  | .call command next, state, held =>
      ledger.takes command ≤ held ∧
        Settles handle last (next (handle command state).1) (handle command state).2
          (after ledger held command (handle command state).1)

/-- How often the commands of a run take a resource. -/
def taken (handle : Handler I State) (resource : R) : Program I α → State → Nat
  | .done _, _ => 0
  | .acquire next, state => taken handle resource next state
  | .release next, state => taken handle resource next state
  | .call command next, state =>
      ledger.takes command resource +
        taken handle resource (next (handle command state).1) (handle command state).2

/-- How often the answers of a run give a resource. -/
def given (handle : Handler I State) (resource : R) : Program I α → State → Nat
  | .done _, _ => 0
  | .acquire next, state => given handle resource next state
  | .release next, state => given handle resource next state
  | .call command next, state =>
      ledger.gives command (handle command state).1 resource +
        given handle resource (next (handle command state).1) (handle command state).2

end Ledger

/-! ## Shares -/

variable {ledger : Ledger I R} {held extra rest : Holdings R}
  {post : α → Holdings R → Prop}

theorem share_le {share : Holdings R} (split : held = rest + share) : share ≤ held := by
  intro resource
  have split := congrFun split resource
  change share resource ≤ held resource
  simp only [Pi.add_apply] at split
  omega

theorem add_sub_share {share gain : Holdings R} (split : held = rest + share) :
    held + gain - share = rest + gain := by
  funext resource
  have split := congrFun split resource
  simp only [Pi.add_apply, Pi.sub_apply] at split ⊢
  omega

/-! ## Programs that balance -/

theorem balances_done {value : α} (holds : post value held) :
    ledger.Balances held post (.done value) :=
  fun _ => ⟨held, holds, rfl⟩

theorem Ledger.Balances.mono {weaker : α → Holdings R → Prop} {program : Program I α}
    (balances : ledger.Balances held post program)
    (implies : ∀ value left, post value left → weaker value left) :
    ledger.Balances held weaker program := by
  intro others
  apply (balances others).mono
  rintro value after ⟨left, holds, isLeft⟩
  exact ⟨left, implies value left holds, isLeft⟩

/-- A command takes its share and leaves the rest and what it gives. -/
theorem balances_call {command : I.Command} {next : I.Answer command → Program I α}
    (allowed : ledger.Allowed command) (rest : Holdings R)
    (split : held = rest + ledger.takes command)
    (balances : ∀ answer, ledger.Answers command answer →
      ledger.Balances (rest + ledger.gives command answer) post (next answer)) :
    ledger.Balances held post (.call command next) := by
  intro others
  have share : others + held = others + rest + ledger.takes command := by
    rw [split, add_assoc]
  refine ⟨⟨allowed, share_le share⟩, ?_⟩
  rintro answer after ⟨answers, rfl⟩
  rw [Ledger.after, add_sub_share share, add_assoc]
  exact balances answer answers others

/-- What a part of a program does not know of is still there for the rest. -/
theorem Ledger.Balances.bind {mid : β → Holdings R → Prop} {program : Program I β}
    {continuation : β → Program I α} (balances : ledger.Balances held mid program)
    (continues : ∀ value left, mid value left →
      ledger.Balances (extra + left) post (continuation value)) :
    ledger.Balances (extra + held) post (program >>= continuation) := by
  intro others
  rw [← add_assoc]
  refine Satisfies.bind ((balances (others + extra)).mono ?_)
  rintro value after ⟨left, holds, rfl⟩
  rw [add_assoc]
  exact continues value left holds others

theorem Ledger.Balances.seq {mid : β → Holdings R → Prop} {program : Program I β}
    {continuation : β → Program I α} (balances : ledger.Balances held mid program)
    (continues : ∀ value left, mid value left →
      ledger.Balances left post (continuation value)) :
    ledger.Balances held post (program >>= continuation) := by
  rw [← zero_add held]
  apply balances.bind
  intro value left holds
  rw [zero_add]
  exact continues value left holds

theorem Ledger.Balances.locked {body : Program I α} (balances : ledger.Balances held post body) :
    ledger.Balances held post (Program.locked body) :=
  fun others => (balances others).locked

/-- Every end has what the value it returns is made of. -/
abbrev Yielding (count : α → Holdings R) (value : α) (left : Holdings R) : Prop :=
  left = count value

/-- Nothing is left in hand. -/
abbrev Spent (_ : α) (left : Holdings R) : Prop :=
  left = 0

/-- What a loop makes is what its rounds make. -/
theorem balances_mapEach {body : β → Program I α} {count : α → Holdings R} (elements : List β)
    (rounds : ∀ element, ledger.Balances 0 (Yielding count) (body element)) :
    ledger.Balances 0 (Yielding fun values => (values.map count).sum)
      (mapEach body elements) := by
  induction elements with
  | nil => exact balances_done rfl
  | cons element others ih =>
      apply (rounds element).seq
      rintro first _ rfl
      rw [← add_zero (count first)]
      apply ih.bind
      rintro values _ rfl
      exact balances_done rfl

/-- A loop that gives back one share in each round gives all of them back. -/
theorem balances_forEach {body : β → Program I Unit} {count : β → Holdings R}
    (rounds : ∀ element, ledger.Balances (count element) Spent (body element))
    (elements : List β) :
    ledger.Balances (elements.map count).sum Spent (forEach body elements) := by
  induction elements with
  | nil => exact balances_done rfl
  | cons element others ih =>
      rw [List.map_cons, List.sum_cons, add_comm]
      apply (rounds element).bind
      rintro _ _ rfl
      rw [add_zero]
      exact ih

/-! ## Runs that settle -/

/-- Where answers are as the ledger knows them, a run settles with what the end
that it comes to has in hand. -/
theorem settles_of_satisfies {handle : Handler I State} {program : Program I α}
    {ends : α → Holdings R → Prop}
    (answers : ∀ command state, ledger.Answers command (handle command state).1)
    (satisfies : program.Satisfies ledger.effect ledger.Ready ends held) (state : State) :
    ∃ last, ends (program.run handle state).1 last ∧
      ledger.Settles handle last program state held := by
  induction program generalizing state held with
  | done value => exact ⟨held, satisfies, rfl⟩
  | acquire next ih => exact ih satisfies state
  | release next ih => exact ih satisfies state
  | call command next ih =>
      obtain ⟨last, isEnd, settles⟩ :=
        ih _ (satisfies.2 _ _ ⟨answers command state, rfl⟩) (handle command state).2
      exact ⟨last, isEnd, satisfies.1.2, settles⟩

theorem Ledger.Balances.settles {handle : Handler I State} {program : Program I α}
    (answers : ∀ command state, ledger.Answers command (handle command state).1)
    (balances : ledger.Balances held post program) (state : State) :
    ∃ left, post (program.run handle state).1 left ∧
      ledger.Settles handle left program state held := by
  have satisfies := balances 0
  rw [zero_add] at satisfies
  obtain ⟨last, ⟨left, holds, isLeft⟩, settles⟩ := settles_of_satisfies answers satisfies state
  rw [zero_add] at isLeft
  exact ⟨left, holds, isLeft ▸ settles⟩

section Bind

variable {handle : Handler I State} {program : Program I β} {continuation : β → Program I α}
  {state : State}

theorem Ledger.Settles.bind {middle last : Holdings R}
    (settles : ledger.Settles handle middle program state held)
    (rest : ledger.Settles handle last (continuation (program.run handle state).1)
      (program.run handle state).2 middle) :
    ledger.Settles handle last (program >>= continuation) state held := by
  induction program generalizing state held with
  | done value =>
      obtain rfl : held = middle := settles
      exact rest
  | acquire next ih => exact ih settles rest
  | release next ih => exact ih settles rest
  | call command next ih => exact ⟨settles.1, ih _ settles.2 rest⟩

theorem Ledger.taken_bind (ledger : Ledger I R) (resource : R) :
    ledger.taken handle resource (program >>= continuation) state =
      ledger.taken handle resource program state +
        ledger.taken handle resource (continuation (program.run handle state).1)
          (program.run handle state).2 := by
  induction program generalizing state with
  | done value => exact (Nat.zero_add _).symm
  | acquire next ih => exact ih
  | release next ih => exact ih
  | call command next ih =>
      simp only [call_bind, Ledger.taken, ih, run_call, Nat.add_assoc]

theorem Ledger.Settles.locked {body : Program I α} {last : Holdings R}
    (settles : ledger.Settles handle last body state held) :
    ledger.Settles handle last (Program.locked body) state held :=
  Settles.bind settles rfl

theorem Ledger.taken_locked (ledger : Ledger I R) (resource : R) (body : Program I α) :
    ledger.taken handle resource (Program.locked body) state =
      ledger.taken handle resource body state :=
  ledger.taken_bind resource

end Bind

/-- In a run that settles, what was there and what was given is what was taken and
what is left. -/
theorem Ledger.Settles.conserves {handle : Handler I State} {program : Program I α}
    {state : State} {last : Holdings R} (settles : ledger.Settles handle last program state held)
    (resource : R) :
    held resource + ledger.given handle resource program state =
      last resource + ledger.taken handle resource program state := by
  induction program generalizing state held with
  | done value =>
      obtain rfl : held = last := settles
      rfl
  | acquire next ih => exact ih settles
  | release next ih => exact ih settles
  | call command next ih =>
      obtain ⟨enough, settles⟩ := settles
      have rest : held resource + ledger.gives command (handle command state).1 resource -
          ledger.takes command resource + ledger.given handle resource _ _ =
            last resource + ledger.taken handle resource _ _ := ih _ settles
      have enough : ledger.takes command resource ≤ held resource := enough resource
      simp only [Ledger.given, Ledger.taken]
      omega

end ResourceLedgers
