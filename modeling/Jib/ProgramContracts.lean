import Jib.CommandProgram
import Mathlib.Logic.Relation

/-!
# Contracts of programs

An effect says how a command may be answered and what it may make of the
state.  A program satisfies a postcondition when every command it issues finds
what the command needs and every end of it meets the postcondition, whatever
the answers are.  A machine runs programs one after another; what the programs
preserve holds in every state that it reaches.
-/

namespace CommandProgram

/-- The answers and states that a command may lead to. -/
abbrev Effect (I : Interface) (State : Type) :=
  (command : I.Command) → State → I.Answer command → State → Prop

namespace Program

variable {I : Interface} {α β State : Type}

/-- Every command finds what it `Needs`, and every end meets `post`. -/
def Satisfies (effect : Effect I State) (Needs : I.Command → State → Prop)
    (post : α → State → Prop) : Program I α → State → Prop
  | .done value, state => post value state
  | .acquire next, state => next.Satisfies effect Needs post state
  | .release next, state => next.Satisfies effect Needs post state
  | .call command next, state =>
      Needs command state ∧
        ∀ answer after, effect command state answer after →
          (next answer).Satisfies effect Needs post after

variable {effect : Effect I State} {Needs : I.Command → State → Prop}
  {post : α → State → Prop} {state : State}

@[simp]
theorem satisfies_done (value : α) :
    (Program.done value : Program I α).Satisfies effect Needs post state ↔
      post value state :=
  Iff.rfl

@[simp]
theorem satisfies_call (command : I.Command) (next : I.Answer command → Program I α) :
    (Program.call command next).Satisfies effect Needs post state ↔
      Needs command state ∧
        ∀ answer after, effect command state answer after →
          (next answer).Satisfies effect Needs post after :=
  Iff.rfl

theorem Satisfies.mono {weaker : α → State → Prop} {program : Program I α}
    (satisfies : program.Satisfies effect Needs post state)
    (implies : ∀ value state, post value state → weaker value state) :
    program.Satisfies effect Needs weaker state := by
  induction program generalizing state with
  | done value => exact implies value state satisfies
  | acquire next ih => exact ih satisfies
  | release next ih => exact ih satisfies
  | call command next ih =>
      exact ⟨satisfies.1, fun answer after moves => ih answer (satisfies.2 answer after moves)⟩

theorem Satisfies.bind {program : Program I β} {continuation : β → Program I α}
    (satisfies : program.Satisfies effect Needs
      (fun value state => (continuation value).Satisfies effect Needs post state) state) :
    (program >>= continuation).Satisfies effect Needs post state := by
  induction program generalizing state with
  | done value => exact satisfies
  | acquire next ih => exact ih satisfies
  | release next ih => exact ih satisfies
  | call command next ih =>
      exact ⟨satisfies.1, fun answer after moves => ih answer (satisfies.2 answer after moves)⟩

theorem Satisfies.of_bind {program : Program I β} {continuation : β → Program I α}
    (satisfies : (program >>= continuation).Satisfies effect Needs post state) :
    program.Satisfies effect Needs
      (fun value state => (continuation value).Satisfies effect Needs post state) state := by
  induction program generalizing state with
  | done value => exact satisfies
  | acquire next ih => exact ih satisfies
  | release next ih => exact ih satisfies
  | call command next ih =>
      exact ⟨satisfies.1, fun answer after moves => ih answer (satisfies.2 answer after moves)⟩

theorem Satisfies.locked {body : Program I α}
    (satisfies : body.Satisfies effect Needs post state) :
    (locked body).Satisfies effect Needs post state :=
  Satisfies.bind satisfies

/-- What each round of a loop preserves holds after the loop, and what each
result has all of them have. -/
theorem satisfies_mapEach {body : β → Program I α} (Keeps : State → Prop)
    {Gives : α → Prop} {elements : List β}
    (rounds : ∀ element ∈ elements, ∀ state, Keeps state →
      (body element).Satisfies effect Needs
        (fun value after => Gives value ∧ Keeps after) state)
    (start : Keeps state) :
    (mapEach body elements).Satisfies effect Needs
      (fun values after => (∀ value ∈ values, Gives value) ∧ Keeps after) state := by
  induction elements generalizing state with
  | nil => exact ⟨by simp, start⟩
  | cons element rest ih =>
      refine (rounds element (by simp) state start).mono ?_ |>.bind
      rintro first middle ⟨gives, keeps⟩
      refine (ih (fun other member => rounds other (by simp [member])) keeps).mono ?_ |>.bind
      rintro others after ⟨give, keeps⟩
      exact ⟨by simpa using ⟨gives, give⟩, keeps⟩

theorem satisfies_forEach {body : β → Program I Unit} (Keeps : List β → State → Prop)
    (rounds : ∀ element rest state, Keeps (element :: rest) state →
      (body element).Satisfies effect Needs (fun _ after => Keeps rest after) state)
    (elements : List β) (start : Keeps elements state) :
    (forEach body elements).Satisfies effect Needs (fun _ after => Keeps [] after) state := by
  induction elements generalizing state with
  | nil => exact start
  | cons element rest ih =>
      exact ((rounds element rest state start).mono fun _ _ keeps => ih keeps).bind

theorem Satisfies.and {other : α → State → Prop} {program : Program I α}
    (satisfies : program.Satisfies effect Needs post state)
    (also : program.Satisfies effect (fun _ _ => True) other state) :
    program.Satisfies effect Needs
      (fun value after => post value after ∧ other value after) state := by
  induction program generalizing state with
  | done value => exact ⟨satisfies, also⟩
  | acquire next ih => exact ih satisfies also
  | release next ih => exact ih satisfies also
  | call command next ih =>
      exact ⟨satisfies.1, fun answer after moves =>
        ih answer (satisfies.2 answer after moves) (also.2 answer after moves)⟩

/-- A property that every effect preserves stays with the program. -/
theorem Satisfies.keep {Keeps : State → Prop} {program : Program I α}
    (satisfies : program.Satisfies effect Needs post state)
    (preserves : ∀ command state answer after, Keeps state →
      effect command state answer after → Keeps after)
    (start : Keeps state) :
    program.Satisfies effect (fun command state => Needs command state ∧ Keeps state)
      (fun value after => post value after ∧ Keeps after) state := by
  induction program generalizing state with
  | done value => exact ⟨satisfies, start⟩
  | acquire next ih => exact ih satisfies start
  | release next ih => exact ih satisfies start
  | call command next ih =>
      refine ⟨⟨satisfies.1, start⟩, ?_⟩
      intro answer after moves
      exact ih answer (satisfies.2 answer after moves)
        (preserves command state answer after start moves)

/-- Where commands do no more, a program satisfies no less. -/
theorem Satisfies.narrow {narrower : Effect I State} {program : Program I α}
    (satisfies : program.Satisfies effect Needs post state)
    (narrows : ∀ command state answer after, narrower command state answer after →
      effect command state answer after) :
    program.Satisfies narrower Needs post state := by
  induction program generalizing state with
  | done value => exact satisfies
  | acquire next ih => exact ih satisfies
  | release next ih => exact ih satisfies
  | call command next ih =>
      exact ⟨satisfies.1, fun answer after moves =>
        ih answer (satisfies.2 answer after (narrows command state answer after moves))⟩

/-- What all commands need and all ends meet holds now. -/
theorem Satisfies.now {Holds : State → Prop} {program : Program I α}
    (satisfies : program.Satisfies effect Needs post state)
    (needs : ∀ command state, Needs command state → Holds state)
    (ends : ∀ value state, post value state → Holds state) : Holds state := by
  induction program with
  | done value => exact ends value state satisfies
  | acquire next ih => exact ih satisfies
  | release next ih => exact ih satisfies
  | call command next _ => exact needs command state satisfies.1

/-- What a program satisfies in one world it satisfies in every world that the
first one simulates. -/
theorem Satisfies.simulate {Other : Type} {effect' : Effect I Other}
    {Needs' : I.Command → Other → Prop} (Related : State → Other → Prop)
    {program : Program I α} {other : Other}
    (satisfies : program.Satisfies effect Needs post state)
    (moves : ∀ command state other, Related state other → Needs command state →
      Needs' command other ∧ ∀ answer after', effect' command other answer after' →
        ∃ after, effect command state answer after ∧ Related after after')
    (related : Related state other) :
    program.Satisfies effect' Needs'
      (fun value after' => ∃ after, post value after ∧ Related after after') other := by
  induction program generalizing state other with
  | done value => exact ⟨state, satisfies, related⟩
  | acquire next ih => exact ih satisfies related
  | release next ih => exact ih satisfies related
  | call command next ih =>
      obtain ⟨needs, rest⟩ := moves command state other related satisfies.1
      refine ⟨needs, ?_⟩
      intro answer after' moves'
      obtain ⟨after, moved, related⟩ := rest answer after' moves'
      exact ih answer (satisfies.2 answer after moved) related

/-- Where every effect preserves a property, every program does. -/
theorem satisfies_of_preserved {Keeps : State → Prop}
    (preserves : ∀ command state answer after, Keeps state →
      effect command state answer after → Keeps after)
    (needs : ∀ command state, Keeps state → Needs command state)
    (program : Program I α) (start : Keeps state) :
    program.Satisfies effect Needs (fun _ after => Keeps after) state := by
  induction program generalizing state with
  | done value => exact start
  | acquire next ih => exact ih start
  | release next ih => exact ih start
  | call command next ih =>
      exact ⟨needs command state start, fun answer after moves =>
        ih answer (preserves command state answer after start moves)⟩

/-- A program whose commands all preserve a property preserves it. -/
theorem Uses.satisfies {Allowed : I.Command → Prop} {Keeps : State → Prop}
    {program : Program I α} (uses : program.Uses Allowed)
    (preserves : ∀ command, Allowed command → ∀ state, Keeps state →
      Needs command state ∧ ∀ answer after, effect command state answer after → Keeps after)
    (start : Keeps state) :
    program.Satisfies effect Needs (fun _ after => Keeps after) state := by
  induction program generalizing state with
  | done value => exact start
  | acquire next => exact uses.elim
  | release next => exact uses.elim
  | call command next ih =>
      obtain ⟨needs, keeps⟩ := preserves command uses.1 state start
      exact ⟨needs, fun answer after moves => ih answer (uses.2 answer) (keeps answer after moves)⟩

/-- A handler whose answers leave a state alone under which the program
satisfies a postcondition gives a result that meets it. -/
theorem Satisfies.run_of_uses {Other : Type} {Allowed : I.Command → Prop}
    {handle : Handler I Other} {program : Program I α}
    (satisfies : program.Satisfies effect Needs post state) (uses : program.Uses Allowed)
    (answers : ∀ command other, Allowed command →
      effect command state (handle command other).1 state) (other : Other) :
    post (program.run handle other).1 state := by
  induction program generalizing other with
  | done value => exact satisfies
  | acquire next => exact uses.elim
  | release next => exact uses.elim
  | call command next ih =>
      exact ih _ (satisfies.2 _ _ (answers command other uses.1)) (uses.2 _) _

/-- The program may return `value` and leave `last`. -/
def Yields (effect : Effect I State) : Program I α → State → α → State → Prop
  | .done result, first, value, last => value = result ∧ last = first
  | .acquire next, first, value, last => next.Yields effect first value last
  | .release next, first, value, last => next.Yields effect first value last
  | .call command next, first, value, last =>
      ∃ answer middle, effect command first answer middle ∧
        (next answer).Yields effect middle value last

/-- Where every command has an answer, every program has an end. -/
theorem exists_yields
    (total : ∀ command state, ∃ answer after, effect command state answer after)
    (program : Program I α) (state : State) :
    ∃ value last, program.Yields effect state value last := by
  induction program generalizing state with
  | done value => exact ⟨value, state, rfl, rfl⟩
  | acquire next ih => exact ih state
  | release next ih => exact ih state
  | call command next ih =>
      obtain ⟨answer, middle, moves⟩ := total command state
      obtain ⟨value, last, yields⟩ := ih answer middle
      exact ⟨value, last, answer, middle, moves, yields⟩

/-- What a program satisfies, each of its ends meets. -/
theorem Satisfies.of_yields {program : Program I α} {last : State} {value : α}
    (satisfies : program.Satisfies effect Needs post state)
    (yields : program.Yields effect state value last) : post value last := by
  induction program generalizing state with
  | done result =>
      obtain ⟨rfl, rfl⟩ := yields
      exact satisfies
  | acquire next ih => exact ih satisfies yields
  | release next ih => exact ih satisfies yields
  | call command next ih =>
      obtain ⟨answer, middle, moves, rest⟩ := yields
      exact ih answer (satisfies.2 answer middle moves) rest

/-- A program whose result is mapped ends in the image of an end of the program. -/
theorem Satisfies.of_yields_map {f : β → α} {program : Program I β} {ends : β → State → Prop}
    {last : State} {value : α} (satisfies : program.Satisfies effect Needs ends state)
    (yields : (f <$> program).Yields effect state value last) :
    ∃ result, value = f result ∧ ends result last := by
  have mapped : (f <$> program).Satisfies effect Needs
      (fun value last => ∃ result, value = f result ∧ ends result last) state :=
    Satisfies.bind (satisfies.mono fun result _ isEnd => ⟨result, rfl, isEnd⟩)
  exact mapped.of_yields yields

/-- A handler that follows the effect where a property holds, which it keeps,
shows what a program may do. -/
theorem yields_run_of_keeps {Keeps : State → Prop} {handle : Handler I State}
    (follows : ∀ command state, Keeps state →
      effect command state (handle command state).1 (handle command state).2 ∧
        Keeps (handle command state).2)
    (program : Program I α) (start : Keeps state) :
    program.Yields effect state (program.run handle state).1
      (program.run handle state).2 := by
  induction program generalizing state with
  | done value => exact ⟨rfl, rfl⟩
  | acquire next ih => exact ih start
  | release next ih => exact ih start
  | call command next ih =>
      obtain ⟨moves, keeps⟩ := follows command state start
      exact ⟨_, _, moves, ih _ keeps⟩

/-- A handler that follows the effect shows what a program may do. -/
theorem yields_run {handle : Handler I State}
    (follows : ∀ command state,
      effect command state (handle command state).1 (handle command state).2)
    (program : Program I α) (state : State) :
    program.Yields effect state (program.run handle state).1
      (program.run handle state).2 :=
  have follows : ∀ command state, True →
      effect command state (handle command state).1 (handle command state).2 ∧ True :=
    fun command state _ => ⟨follows command state, trivial⟩
  yields_run_of_keeps follows program trivial

end Program

open Program

/-- Operations, each served by a program.  `enter` and `finish` are what the
start and the end of an operation make of the state. -/
structure Machine (I : Interface) (Op Reply State : Type) where
  program : Op → Program I Reply
  effect : Effect I State
  Enabled : Op → State → Prop
  enter : Op → State → State
  finish : Op → Reply → State → State

namespace Machine

variable {I : Interface} {Op Reply State : Type}

/-- The state and what is left of the operation that runs. -/
structure Config (I : Interface) (Op Reply State : Type) where
  state : State
  running : Option (Op × Program I Reply)

/-- The machine that starts an operation only where a condition holds. -/
def restrict (machine : Machine I Op Reply State) (Condition : Op → State → Prop) :
    Machine I Op Reply State :=
  { machine with
    Enabled := fun operation state =>
      machine.Enabled operation state ∧ Condition operation state }

/-- The machine whose commands are only answered as a condition says. -/
def heed (machine : Machine I Op Reply State)
    (Heeds : (command : I.Command) → State → I.Answer command → Prop) :
    Machine I Op Reply State :=
  { machine with
    effect := fun command state answer after =>
      machine.effect command state answer after ∧ Heeds command state answer }

variable (machine : Machine I Op Reply State)

inductive Step : Config I Op Reply State → Config I Op Reply State → Prop
  | start {state : State} (operation : Op) (enabled : machine.Enabled operation state) :
      Step ⟨state, none⟩
        ⟨machine.enter operation state, some (operation, machine.program operation)⟩
  | acquire {state : State} {operation : Op} {next : Program I Reply} :
      Step ⟨state, some (operation, .acquire next)⟩ ⟨state, some (operation, next)⟩
  | release {state : State} {operation : Op} {next : Program I Reply} :
      Step ⟨state, some (operation, .release next)⟩ ⟨state, some (operation, next)⟩
  | call {state after : State} {operation : Op} {command : I.Command}
      {next : I.Answer command → Program I Reply} (answer : I.Answer command)
      (moves : machine.effect command state answer after) :
      Step ⟨state, some (operation, .call command next)⟩
        ⟨after, some (operation, next answer)⟩
  | finish {state : State} {operation : Op} {reply : Reply} :
      Step ⟨state, some (operation, .done reply)⟩
        ⟨machine.finish operation reply state, none⟩

/-- Reachable from an idle machine. -/
def Reaches (start : State) : Config I Op Reply State → Prop :=
  Relation.ReflTransGen machine.Step ⟨start, none⟩

variable {machine} {start : State} {config : Config I Op Reply State}

theorem steps_of_yields {operation : Op} {α : Type} {part : Program I α}
    {continuation : α → Program I Reply} {state last : State} {value : α}
    (yields : part.Yields machine.effect state value last) :
    Relation.ReflTransGen machine.Step ⟨state, some (operation, part >>= continuation)⟩
      ⟨last, some (operation, continuation value)⟩ := by
  induction part generalizing state with
  | done result =>
      obtain ⟨rfl, rfl⟩ := yields
      exact .refl
  | acquire next ih => exact .head .acquire (ih yields)
  | release next ih => exact .head .release (ih yields)
  | call command next ih =>
      obtain ⟨answer, middle, moves, rest⟩ := yields
      exact .head (.call answer moves) (ih answer rest)

/-- From idle to idle by one operation. -/
theorem Reaches.operation {state last : State} {reply : Reply}
    (reaches : machine.Reaches start ⟨state, none⟩) (operation : Op)
    (enabled : machine.Enabled operation state)
    (yields : (machine.program operation).Yields machine.effect
      (machine.enter operation state) reply last) :
    machine.Reaches start ⟨machine.finish operation reply last, none⟩ := by
  have started := Relation.ReflTransGen.tail reaches (.start operation enabled)
  have steps := @steps_of_yields _ _ _ _ machine operation _ _ .done _ _ _ yields
  rw [show machine.program operation >>= .done = machine.program operation from
    bind_done _] at steps
  exact .tail (started.trans steps) .finish

/-- A run that heeds a condition is a run. -/
theorem Reaches.of_restrict {Condition : Op → State → Prop}
    (reaches : (machine.restrict Condition).Reaches start config) :
    machine.Reaches start config := by
  refine Relation.ReflTransGen.mono ?_ _ _ reaches
  intro before after step
  cases step with
  | start operation enabled => exact .start operation enabled.1
  | acquire => exact .acquire
  | release => exact .release
  | call answer moves => exact .call answer moves
  | finish => exact .finish

/-- What an operation makes of a state when a handler answers its commands. -/
def perform (machine : Machine I Op Reply State) (handle : Handler I State) (operation : Op)
    (state : State) : State :=
  let ended := (machine.program operation).run handle (machine.enter operation state)
  machine.finish operation ended.1 ended.2

theorem Reaches.perform {state : State} {handle : Handler I State}
    (reaches : machine.Reaches start ⟨state, none⟩)
    (follows : ∀ command state,
      machine.effect command state (handle command state).1 (handle command state).2)
    (operation : Op) (enabled : machine.Enabled operation state) :
    machine.Reaches start ⟨machine.perform handle operation state, none⟩ :=
  reaches.operation operation enabled (yields_run follows _ _)

/-- Every operation, started where `Keeps` holds, gives its commands what they
need and ends in what `post` says; its end restores `Keeps`. -/
structure Contract (machine : Machine I Op Reply State) (Needs : I.Command → State → Prop)
    (Keeps : State → Prop) (post : Op → Reply → State → Prop) : Prop where
  operations : ∀ operation state, Keeps state → machine.Enabled operation state →
    (machine.program operation).Satisfies machine.effect Needs (post operation)
      (machine.enter operation state)
  finish : ∀ operation reply state, post operation reply state →
    Keeps (machine.finish operation reply state)

/-- What the program of an operation that runs still has to do. -/
def Config.Continues (machine : Machine I Op Reply State)
    (Needs : I.Command → State → Prop) (Keeps : State → Prop)
    (post : Op → Reply → State → Prop) (config : Config I Op Reply State) : Prop :=
  match config.running with
  | none => Keeps config.state
  | some (operation, rest) =>
      rest.Satisfies machine.effect Needs (post operation) config.state

variable {Needs : I.Command → State → Prop} {Keeps : State → Prop}
  {post : Op → Reply → State → Prop}

/-- Between operations what they all keep holds, and what runs goes on to
satisfy its contract. -/
theorem Reaches.continues (reaches : machine.Reaches start config)
    (contract : machine.Contract Needs Keeps post) (atStart : Keeps start) :
    config.Continues machine Needs Keeps post := by
  induction reaches with
  | refl => exact atStart
  | tail _ step ih =>
      cases step with
      | start operation enabled => exact contract.operations operation _ ih enabled
      | acquire => exact ih
      | release => exact ih
      | call answer moves => exact ih.2 answer _ moves
      | finish => exact contract.finish _ _ _ ih

/-- Every command that is issued finds what it needs. -/
theorem Reaches.needs (reaches : machine.Reaches start config)
    (contract : machine.Contract Needs Keeps post) (atStart : Keeps start)
    {operation : Op} {command : I.Command} {next : I.Answer command → Program I Reply}
    (issues : config.running = some (operation, .call command next)) :
    Needs command config.state := by
  have continues := reaches.continues contract atStart
  rw [Config.Continues, issues] at continues
  exact continues.1

/-- What holds between operations, at every command and at every end holds
always. -/
theorem Reaches.always (Holds : State → Prop) (reaches : machine.Reaches start config)
    (contract : machine.Contract Needs Keeps post) (atStart : Keeps start)
    (keeps : ∀ state, Keeps state → Holds state)
    (needs : ∀ command state, Needs command state → Holds state)
    (ends : ∀ operation reply state, post operation reply state → Holds state) :
    Holds config.state := by
  have continues := reaches.continues contract atStart
  unfold Config.Continues at continues
  split at continues
  · exact keeps _ continues
  · exact continues.now needs (ends _)

/-! ## Histories -/

/-- An operation that has ended: what it found, its reply and what its program
left. -/
structure Completed (Op Reply State : Type) where
  operation : Op
  before : State
  reply : Reply
  after : State

/-- The operations that have ended one after another, the last one first, and
the state they leave. -/
inductive History (machine : Machine I Op Reply State) (start : State) :
    List (Completed Op Reply State) → State → Prop
  | start : History machine start [] start
  | operation {completed : List (Completed Op Reply State)} {before after : State}
      {reply : Reply} (earlier : History machine start completed before) (operation : Op)
      (enabled : machine.Enabled operation before)
      (yields : (machine.program operation).Yields machine.effect
        (machine.enter operation before) reply after) :
      History machine start (⟨operation, before, reply, after⟩ :: completed)
        (machine.finish operation reply after)

variable {completed : List (Completed Op Reply State)} {last : State}

/-- What every operation keeps holds before each and at the end, and each makes
of what it found what all make of what they find. -/
theorem History.forall_completed (history : machine.History start completed last)
    (Keeps : State → Prop) (Ends : Op → State → Reply → State → Prop) (atStart : Keeps start)
    (operations : ∀ operation before, Keeps before → machine.Enabled operation before →
      (machine.program operation).Satisfies machine.effect Needs
        (fun reply after => Ends operation before reply after ∧
          Keeps (machine.finish operation reply after))
        (machine.enter operation before)) :
    (∀ ended ∈ completed, Keeps ended.before ∧
      Ends ended.operation ended.before ended.reply ended.after) ∧ Keeps last := by
  induction history with
  | start => exact ⟨by simp, atStart⟩
  | operation earlier operation enabled yields ih =>
      obtain ⟨each, keeps⟩ := ih
      obtain ⟨ends, keepsOn⟩ := (operations operation _ keeps enabled).of_yields yields
      refine ⟨?_, keepsOn⟩
      intro ended member
      rcases List.mem_cons.mp member with rfl | member
      · exact ⟨keeps, ends⟩
      · exact each ended member

theorem History.yields_of_mem (history : machine.History start completed last)
    {ended : Completed Op Reply State} (member : ended ∈ completed) :
    (machine.program ended.operation).Yields machine.effect
      (machine.enter ended.operation ended.before) ended.reply ended.after := by
  induction history with
  | start => cases member
  | operation earlier operation enabled yields ih =>
      rcases List.mem_cons.mp member with rfl | member
      · exact yields
      · exact ih member

end Machine

end CommandProgram
