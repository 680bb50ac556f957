import Jib.JSCHoldings
import Mathlib.Algebra.BigOperators.Group.Finset.Basic
import Mathlib.Algebra.BigOperators.Pi
import Mathlib.Data.Finset.Card

/-!
# Protections, classes and bodies over the life of a `Jib`

An account of what the functions of one `Jib` create, protect and retain, and
of what they release.  Between operations what has not been released again is
what live functions hold.  Objects come and go while scripts run, and with them
their private data.
-/

namespace Jib.JSC

open CommandProgram Program ResourceLedgers

/-- A `Jib` is unmade until its constructor runs, and gone from the moment its
last strong reference is given up. -/
inductive Stage
  | unmade
  | present
  | gone
  deriving DecidableEq

/-- One `Jib` and the functions that are or were made with it.  `given` counts
what has been created, protected and retained, `taken` what has been released;
`customFunctions`, `printFn` and `released` are fields of the `Jib`, `held` are
the references that the program has.  Of all functions that the program was
given, `made` are those that `new(function:body:)` made, `found` those that were
looked up. -/
structure Account where
  given : Holdings Resource
  taken : Holdings Resource
  privateOf : JSObjectRef → AnyPtr
  released : Bool
  stage : Stage
  customFunctions : List JibFunction
  printFn : Option JibFunction
  held : List JibFunction
  made : List JibFunction
  found : List JibFunction

namespace Account

def initial : Account :=
  ⟨0, 0, fun _ => none, false, .unmade, [], none, [], [], []⟩

/-- The weak reference of a function to its `Jib` gives the `Jib`. -/
def loaded (account : Account) : Bool :=
  account.stage ≠ .gone

/-- The `Jib` is there and has not been released. -/
def protecting (account : Account) : Bool :=
  account.loaded && !account.released

/-- The functions that have not been deallocated. -/
def live (account : Account) : Finset JibFunction :=
  (account.customFunctions ++ account.printFn.toList ++ account.held).toFinset

/-- The functions that only `customFunctions` holds. -/
def dropped (account : Account) : List JibFunction :=
  account.customFunctions.filter fun function =>
    function ∉ account.held ∧ function ∉ account.printFn

/-- `printFn`, where only the `Jib` holds it. -/
def droppedPrint (account : Account) : Option JibFunction :=
  account.printFn.filter fun function => function ∉ account.held

/-- What a command makes of `customFunctions`. -/
def customAfter (before : List JibFunction) : Command → List JibFunction
  | .appendCustomFunction function => before ++ [function]
  | .clearCustomFunctions => []
  | _ => before

/-- What a command makes of `printFn`. -/
def printAfter (before : Option JibFunction) : Command → Option JibFunction
  | .setPrintFn function => function
  | _ => before

/-- The answers that commands have.  A class and a body are new: no other that
has not been released is at their place.  A callable object has no private
data. -/
def Answers (account : Account) : (command : Command) → Answer command → Prop
  | .jsClassCreate, jsClass =>
      account.given (.jsClass jsClass) = account.taken (.jsClass jsClass)
  | .makeRetainedPtr _, bodyPtr =>
      ∃ address, bodyPtr = some address ∧
        account.given (.body address) = account.taken (.body address)
  | .jsObjectIsFunction _ object, isFunction =>
      isFunction = true → account.privateOf object = none
  | .jsObjectGetPrivate object, data => data = account.privateOf object
  | command, answer => (holdings account.released account.loaded).Answers command answer

/-- One command.  Only looking whether an object is a function leaves all
objects as they are. -/
structure Moves (command : Command) (before : Account) (answer : Answer command)
    (after : Account) : Prop where
  answers : before.Answers command answer
  given : after.given =
    before.given + (holdings before.released before.loaded).gives command answer
  taken : after.taken =
    before.taken + (holdings before.released before.loaded).takes command
  privateOf : ∀ context object, command = .jsObjectIsFunction context object →
    after.privateOf = before.privateOf
  customFunctions : after.customFunctions = customAfter before.customFunctions command
  printFn : after.printFn = printAfter before.printFn command
  released : after.released = (before.released || command = .setReleased)
  stage : after.stage = before.stage
  held : after.held = before.held
  made : after.made = before.made
  found : after.found = before.found

def effect : Effect interface Account :=
  Moves

end Account

variable {D : Type}

/-- What the program does with one `Jib` and its functions.  A function that is
dropped has another reference, one that is deallocated has none. -/
inductive AccountOperation (D : Type)
  | create (clone : Option JibFields) (printBody : JibFunctionBody)
  | perform (operation : PublicOperation D)
  | drop (function : JibFunction)
  | deallocate (function : JibFunction)
  | release (dropped : List JibFunction) (droppedPrint : Option JibFunction)
  | deinitJib (dropped : List JibFunction) (droppedPrint : Option JibFunction)

namespace AccountOperation

def program (jib : JibFields) : AccountOperation D → Operation (Reply D)
  | .create clone printBody => do
      let _ ← initJib clone printBody
      return .nothing
  | .perform operation => operation.program jib
  | .drop _ => return .nothing
  | .deallocate function => do
      function.deinit
      return .nothing
  | .release dropped droppedPrint => do
      JSC.release jib dropped droppedPrint
      return .nothing
  | .deinitJib dropped droppedPrint => do
      JSC.deinitJib jib dropped droppedPrint
      return .nothing

/-- Functions can be given up at any time, also when the `Jib` is gone. -/
def Enabled : AccountOperation D → Account → Prop
  | .create _ _, account => account.stage = .unmade
  | .perform _, account => account.stage = .present
  | .drop function, account =>
      function ∈ account.held ∧ (function ∈ account.customFunctions ∨
        function ∈ account.printFn ∨ function ∈ account.held.erase function)
  | .deallocate function, account =>
      function ∈ account.held ∧ function ∉ account.customFunctions ∧
        function ∉ account.printFn ∧ function ∉ account.held.erase function
  | .release dropped droppedPrint, account =>
      account.stage = .present ∧ dropped = account.dropped ∧
        droppedPrint = account.droppedPrint
  | .deinitJib dropped droppedPrint, account =>
      account.stage = .present ∧ dropped = account.dropped ∧
        droppedPrint = account.droppedPrint

def enter : AccountOperation D → Account → Account
  | .create _ _, account => { account with stage := .present }
  | .deinitJib _ _, account => { account with stage := .gone }
  | _, account => account

def finish : AccountOperation D → Reply D → Account → Account
  | .create _ _, _, account => { account with made := account.printFn.toList ++ account.made }
  | .perform (.newFunction _ _), reply, account =>
      { account with
        held := reply.functions ++ account.held
        made := reply.functions ++ account.made }
  | .perform _, reply, account =>
      { account with
        held := reply.functions ++ account.held
        found := reply.functions ++ account.found }
  | .drop function, _, account => { account with held := account.held.erase function }
  | .deallocate function, _, account => { account with held := account.held.erase function }
  | _, _, account => account

theorem finish_released (operation : AccountOperation D) (reply : Reply D) (account : Account) :
    (operation.finish reply account).released = account.released := by
  fun_cases AccountOperation.finish <;> rfl

theorem finish_stage (operation : AccountOperation D) (reply : Reply D) (account : Account) :
    (operation.finish reply account).stage = account.stage := by
  fun_cases AccountOperation.finish <;> rfl

/-- The operation gives up the context and all functions of the `Jib`. -/
def releases : AccountOperation D → Bool
  | .release _ _ | .deinitJib _ _ => true
  | _ => false

end AccountOperation

/-- The runs of one `Jib` as far as its functions are concerned. -/
def accountMachine (jib : JibFields) :
    Machine interface (AccountOperation D) (Reply D) Account where
  program := AccountOperation.program jib
  effect := Account.effect
  Enabled := AccountOperation.Enabled
  enter := AccountOperation.enter
  finish := AccountOperation.finish

/-! ## Holdings of sets of functions -/

def Resource.isProtection : Resource → Bool
  | .protection _ => true
  | _ => false

/-- The class of a function, its body and the object that it wraps. -/
def JibFunction.holds (function : JibFunction) : Resource → Bool
  | .jsClass reference => function.jsClass = reference
  | .body address => function.bodyPtr = some address
  | .protection object => function.objectRef = some object

/-- How many functions of a set hold a resource. -/
def heldBy (functions : Finset JibFunction) (resource : Resource) : Nat :=
  (functions.filter fun function => function.holds resource).card

section Holdings

variable {protecting : Bool} {functions : Finset JibFunction} {function : JibFunction}
  {resource : Resource}

theorem holding_apply (counted : resource.isProtection = true → protecting = true)
    (function : JibFunction) :
    function.holding protecting resource = if function.holds resource then 1 else 0 := by
  obtain ⟨jsClass, objectRef, bodyPtr⟩ := function
  cases resource with
  | protection object =>
      obtain rfl := counted rfl
      cases objectRef <;> cases bodyPtr <;>
        simp [JibFunction.holding, JibFunction.wrapping, protectionHolding, bodyHolding,
          JibFunction.holds, Pi.single_apply, eq_comm]
  | jsClass reference =>
      cases protecting <;> cases objectRef <;> cases bodyPtr <;>
        simp [JibFunction.holding, JibFunction.wrapping, protectionHolding, bodyHolding,
          JibFunction.holds, Pi.single_apply, eq_comm]
  | body address =>
      cases protecting <;> cases objectRef <;> cases bodyPtr <;>
        simp [JibFunction.holding, JibFunction.wrapping, protectionHolding, bodyHolding,
          JibFunction.holds, Pi.single_apply, eq_comm]

/-- An object that is not to be unprotected does not count. -/
theorem holding_of_not_counted (notCounted : ¬(resource.isProtection = true → protecting = true))
    (function : JibFunction) : function.holding protecting resource = 0 := by
  obtain ⟨isProtection, notProtecting⟩ := Classical.not_imp.mp notCounted
  obtain rfl : protecting = false := Bool.eq_false_of_not_eq_true notProtecting
  obtain ⟨jsClass, objectRef, bodyPtr⟩ := function
  cases resource with
  | protection object =>
      cases bodyPtr <;> simp [JibFunction.holding, JibFunction.wrapping, bodyHolding]
  | _ => cases isProtection

theorem heldBy_insert (isNew : function ∉ functions) :
    heldBy (insert function functions) resource =
      heldBy functions resource + if function.holds resource then 1 else 0 := by
  unfold heldBy
  rw [Finset.filter_insert]
  split
  · exact Finset.card_insert_of_notMem fun member => isNew (Finset.mem_of_mem_filter _ member)
  · rfl

theorem heldBy_erase (member : function ∈ functions) :
    heldBy (functions.erase function) resource + (if function.holds resource then 1 else 0) =
      heldBy functions resource := by
  rw [← heldBy_insert (Finset.notMem_erase function functions), Finset.insert_erase member]

theorem heldBy_union {others : Finset JibFunction} (disjoint : Disjoint functions others) :
    heldBy (functions ∪ others) resource = heldBy functions resource + heldBy others resource := by
  unfold heldBy
  rw [Finset.filter_union, Finset.card_union_of_disjoint]
  exact Finset.disjoint_filter_filter disjoint

/-- What a list of functions holds, each of them once. -/
theorem sum_holding (counted : resource.isProtection = true → protecting = true)
    {list : List JibFunction} (nodup : list.Nodup) :
    (list.map (JibFunction.holding protecting)).sum resource = heldBy list.toFinset resource := by
  induction list with
  | nil => rfl
  | cons function rest ih =>
      obtain ⟨notMember, nodup⟩ := List.nodup_cons.mp nodup
      rw [List.map_cons, List.sum_cons, List.toFinset_cons,
        heldBy_insert (by simpa using notMember), ← ih nodup, Pi.add_apply,
        holding_apply counted, add_comm]

theorem sum_holding_of_not_counted
    (notCounted : ¬(resource.isProtection = true → protecting = true))
    (list : List JibFunction) : (list.map (JibFunction.holding protecting)).sum resource = 0 := by
  induction list with
  | nil => rfl
  | cons function rest ih =>
      rw [List.map_cons, List.sum_cons, Pi.add_apply, holding_of_not_counted notCounted, ih]

/-- Who holds a class is counted. -/
theorem heldBy_pos (member : function ∈ functions) (holds : function.holds resource = true) :
    0 < heldBy functions resource :=
  Finset.card_pos.mpr ⟨function, Finset.mem_filter.mpr ⟨member, holds⟩⟩

end Holdings

/-! ## What programs leave -/

namespace Account

/-- Nothing is released that has not been created, protected or retained, or that
has been released already. -/
def Enough (command : Command) (account : Account) : Prop :=
  account.taken + (holdings account.released account.loaded).takes command ≤ account.given

/-- What is at one place has been released before something else is. -/
def Single (account : Account) : Prop :=
  ∀ resource, resource.isProtection = false →
    account.given resource ≤ account.taken resource + 1

/-- Only the counts have changed since, and what is in hand is what is given but
not taken. -/
structure During (start : Account) (inHand : Holdings Resource) (account : Account) : Prop where
  given : account.given = account.taken + inHand
  single : account.Single
  released : account.released = start.released
  stage : account.stage = start.stage
  customFunctions : account.customFunctions = start.customFunctions
  printFn : account.printFn = start.printFn
  held : account.held = start.held
  made : account.made = start.made
  found : account.found = start.found

variable {start account before after : Account} {inHand others held : Holdings Resource}
  {α : Type} {post : α → Holdings Resource → Prop}

theorem During.loaded (during : During start inHand account) : account.loaded = start.loaded := by
  unfold Account.loaded
  rw [during.stage]

/-- New classes and bodies are at places of their own. -/
theorem Single.moves {command : Command} {answer : Answer command} (single : before.Single)
    (moves : Moves command before answer after) : after.Single := by
  intro resource notProtection
  have wasSingle := single resource notProtection
  have answers := moves.answers
  rw [moves.given, moves.taken]
  simp only [Pi.add_apply]
  have gives : (holdings before.released before.loaded).gives command answer resource = 0 ∨
      (holdings before.released before.loaded).gives command answer resource = 1 ∧
        before.given resource = before.taken resource := by
    cases command with
    | jsClassCreate =>
        by_cases same : resource = .jsClass answer
        · subst same
          exact .inr ⟨Pi.single_eq_same _ _, answers⟩
        · exact .inl (Pi.single_eq_of_ne same _)
    | makeRetainedPtr body =>
        obtain ⟨address, rfl, isNew⟩ := answers
        by_cases same : resource = .body address
        · subst same
          exact .inr ⟨Pi.single_eq_same _ _, isNew⟩
        · exact .inl (Pi.single_eq_of_ne same _)
    | jsValueProtect context value =>
        left
        cases value with
        | none => rfl
        | some object =>
            apply Pi.single_eq_of_ne
            rintro rfl
            cases notProtection
    | _ => exact .inl rfl
  omega

/-- A command that sets no field. -/
theorem During.moves {command : Command} {answer : Answer command}
    (during : During start inHand before) (ordinary : command.setsFields = false)
    (ready : (holdings start.released start.loaded).takes command ≤ inHand)
    (moves : Moves command before answer after) :
    During start ((holdings start.released start.loaded).after inHand command answer) after where
  given := by
    rw [moves.given, moves.taken, during.given, Ledger.after, during.released, during.loaded]
    funext resource
    have enough : (holdings start.released start.loaded).takes command resource ≤
        inHand resource := ready resource
    simp only [Pi.add_apply, Pi.sub_apply]
    omega
  single := during.single.moves moves
  released := by
    have notSet : command ≠ .setReleased := by
      rintro rfl
      cases ordinary
    simp [moves.released, during.released, notSet]
  stage := moves.stage.trans during.stage
  customFunctions := by
    rw [moves.customFunctions, during.customFunctions]
    cases command <;> first | rfl | cases ordinary
  printFn := by
    rw [moves.printFn, during.printFn]
    cases command <;> first | rfl | cases ordinary
  held := moves.held.trans during.held
  made := moves.made.trans during.made
  found := moves.found.trans during.found

/-- What a program that balances has in hand at its end. -/
theorem satisfies_of_balances {program : Operation α}
    (balances : (holdings start.released start.loaded).Balances held post program)
    (during : During start (others + held) account) :
    program.Satisfies effect Enough
      (fun value after => ∃ left, post value left ∧ During start (others + left) after)
      account := by
  refine (Satisfies.simulate (fun inHand account => During start inHand account)
    (balances others) ?_ during).mono ?_
  · rintro command inHand account during ⟨allowed, ready⟩
    constructor
    · intro resource
      have enough : (holdings start.released start.loaded).takes command resource ≤
          inHand resource := ready resource
      rw [during.given, during.released, during.loaded]
      simp only [Pi.add_apply]
      omega
    · intro answer after moves
      refine ⟨_, ⟨?_, rfl⟩, during.moves allowed ready moves⟩
      have answers := moves.answers
      cases command with
      | readReleased => exact answers.trans during.released
      | loadJib function => exact answers.trans during.loaded
      | _ => trivial
  · rintro value after ⟨_, ⟨left, holds, rfl⟩, during⟩
    exact ⟨left, holds, during⟩

/-! ## Programs that set fields -/

theorem enough_of_takes_eq_zero {command : Command} (during : During start inHand account)
    (takesNothing : (holdings account.released account.loaded).takes command = 0) :
    Enough command account := by
  intro resource
  rw [takesNothing, during.given]
  exact Nat.le_add_right _ _

/-- A command that sets a field. -/
theorem During.sets {command : Command} {answer : Answer command}
    (during : During start inHand before) (sets : command.setsFields = true)
    (moves : Moves command before answer after) :
    During { start with
      released := (start.released || command = .setReleased)
      customFunctions := customAfter start.customFunctions command
      printFn := printAfter start.printFn command } inHand after where
  given := by
    rw [moves.given, moves.taken]
    have nothing : (holdings before.released before.loaded).gives command answer = 0 ∧
        (holdings before.released before.loaded).takes command = 0 := by
      cases command <;> first | exact ⟨rfl, rfl⟩ | cases sets
    rw [nothing.1, nothing.2, add_zero, add_zero, during.given]
  single := during.single.moves moves
  released := by rw [moves.released, during.released]
  stage := moves.stage.trans during.stage
  customFunctions := by rw [moves.customFunctions, during.customFunctions]
  printFn := by rw [moves.printFn, during.printFn]
  held := moves.held.trans during.held
  made := moves.made.trans during.made
  found := moves.found.trans during.found

theorem During.append {function : JibFunction} {answer : Answer (.appendCustomFunction function)}
    (during : During start inHand before)
    (moves : Moves (.appendCustomFunction function) before answer after) :
    During { start with customFunctions := start.customFunctions ++ [function] } inHand after := by
  simpa [customAfter, printAfter] using during.sets rfl moves

theorem During.clear {answer : Answer .clearCustomFunctions} (during : During start inHand before)
    (moves : Moves .clearCustomFunctions before answer after) :
    During { start with customFunctions := [] } inHand after := by
  simpa [customAfter, printAfter] using during.sets rfl moves

theorem During.setPrint {function : Option JibFunction} {answer : Answer (.setPrintFn function)}
    (during : During start inHand before)
    (moves : Moves (.setPrintFn function) before answer after) :
    During { start with printFn := function } inHand after := by
  simpa [customAfter, printAfter] using during.sets rfl moves

theorem During.setReleased {answer : Answer .setReleased} (during : During start inHand before)
    (moves : Moves .setReleased before answer after) :
    During { start with released := true } inHand after := by
  simpa [customAfter, printAfter] using during.sets rfl moves

/-- A command that only looks. -/
theorem During.query {command : Command} {answer : Answer command}
    (during : During start inHand before) (ordinary : command.setsFields = false)
    (takesNothing : (holdings start.released start.loaded).takes command = 0)
    (givesNothing : (holdings start.released start.loaded).gives command answer = 0)
    (moves : Moves command before answer after) : During start inHand after := by
  have ready : (holdings start.released start.loaded).takes command ≤ inHand := by
    rw [takesNothing]
    exact fun resource => Nat.zero_le _
  have moved := during.moves ordinary ready moves
  rw [Ledger.after, takesNothing, givesNothing, add_zero] at moved
  exact moved

/-- A function is made and appended, or nothing is left. -/
theorem satisfies_newFunction (jib : JibFields) (name : HalfHitch) (body : JibFunctionBody)
    (loaded : start.loaded = true) (during : During start others account) :
    (newFunction jib name body).Satisfies effect Enough
      (fun made after => match made with
        | some function => start.released = false ∧ During
            { start with customFunctions := start.customFunctions ++ [function] }
            (others + function.holding true) after
        | none => During start others after) account := by
  refine ⟨enough_of_takes_eq_zero during rfl, ?_⟩
  intro answer read moves
  have isReleased : answer = start.released := moves.answers.trans during.released
  have during := during.query rfl rfl rfl moves
  cases answer with
  | true => exact during
  | false =>
      have balances : (holdings start.released start.loaded).Balances 0
          (Yielding (optionHolding (JibFunction.holding true)))
          (makeJibFunction jib name body) := by
        rw [← isReleased, loaded]
        exact holdings_makeJibFunction jib name body
      rw [← add_zero others] at during
      change Satisfies _ _ _ (locked (makeJibFunction jib name body >>= _)) _
      apply Satisfies.locked
      refine Satisfies.bind ((satisfies_of_balances balances during).mono ?_)
      rintro made after ⟨_, rfl, during⟩
      cases made with
      | none => exact during
      | some function =>
          refine ⟨enough_of_takes_eq_zero during rfl, ?_⟩
          intro _ appended moves
          exact ⟨isReleased.symm, during.append moves⟩

theorem satisfies_deinits (functions : List JibFunction)
    (during : During start
      (others + (functions.map (JibFunction.holding (start.loaded && !start.released))).sum)
      account) :
    (forEach JibFunction.deinit functions).Satisfies effect Enough
      (fun _ after => During start others after) account := by
  apply (satisfies_of_balances (holdings_deinits functions) during).mono
  rintro _ after ⟨_, rfl, during⟩
  rwa [add_zero] at during

/-- The context is released unless it has been. -/
theorem satisfies_releaseContext (jib : JibFields) (during : During start others account) :
    (releaseContext jib).Satisfies effect Enough
      (fun _ after => During { start with released := true } others after) account := by
  refine ⟨enough_of_takes_eq_zero during rfl, ?_⟩
  intro answer read moves
  have isReleased : answer = start.released := moves.answers.trans during.released
  have during := during.query rfl rfl rfl moves
  cases answer with
  | true =>
      have released : During { start with released := true } others read := by
        rw [isReleased]
        exact during
      exact released
  | false =>
      refine ⟨enough_of_takes_eq_zero during rfl, ?_⟩
      intro _ contextReleased moves
      have during := during.query rfl rfl rfl moves
      refine ⟨enough_of_takes_eq_zero during rfl, ?_⟩
      intro _ groupReleased moves
      have during := during.query rfl rfl rfl moves
      refine ⟨enough_of_takes_eq_zero during rfl, ?_⟩
      intro _ after moves
      exact during.setReleased moves

/-- The functions that only the `Jib` held are deallocated. -/
theorem satisfies_releaseBody (jib : JibFields) {dropped : List JibFunction}
    {droppedPrint : Option JibFunction}
    (during : During start (others +
      (droppedPrint.toList.map (JibFunction.holding (start.loaded && !start.released))).sum +
      (dropped.map (JibFunction.holding (start.loaded && !start.released))).sum) account) :
    (releaseBody jib dropped droppedPrint).Satisfies effect Enough
      (fun _ after => During { start with
        customFunctions := []
        printFn := none
        released := true } others after) account := by
  refine ⟨enough_of_takes_eq_zero during rfl, ?_⟩
  intro _ cleared moves
  have during := during.clear moves
  change Satisfies _ _ _ (forEach JibFunction.deinit dropped >>= _) _
  refine Satisfies.bind ((satisfies_deinits dropped during).mono ?_)
  intro _ dropped during
  refine ⟨enough_of_takes_eq_zero during rfl, ?_⟩
  intro _ unset moves
  have during := during.setPrint moves
  change Satisfies _ _ _ (forEach JibFunction.deinit droppedPrint.toList >>= _) _
  refine Satisfies.bind ((satisfies_deinits droppedPrint.toList during).mono ?_)
  intro _ emptied during
  exact satisfies_releaseContext jib during

/-! ## What holds between operations -/

/-- Protections count while the `Jib` is there and has not been released, classes
and bodies always. -/
def Counts (account : Account) (resource : Resource) : Prop :=
  resource.isProtection = true → account.protecting = true

/-- What has not been released again is what live functions hold. -/
structure Idle (account : Account) : Prop where
  owed : ∀ resource, account.Counts resource →
    account.given resource = account.taken resource + heldBy account.live resource
  solvent : account.taken ≤ account.given
  single : account.Single
  nodup : account.customFunctions.Nodup
  made : ∀ function ∈ account.live, function.bodyPtr ≠ none → function ∈ account.made
  found : ∀ function ∈ account.found, function.bodyPtr = none
  unmade : account.stage = .unmade → account.printFn = none
  givenUp : account.released = true → account.customFunctions = [] ∧ account.printFn = none

theorem mem_live {function : JibFunction} :
    function ∈ account.live ↔ function ∈ account.customFunctions ∨
      function ∈ account.printFn ∨ function ∈ account.held := by
  simp [live]

theorem idle_initial : initial.Idle where
  owed := fun _ _ => rfl
  solvent := le_refl _
  single := fun _ _ => Nat.zero_le _
  nodup := List.nodup_nil
  made := by simp [initial, live]
  found := by simp [initial]
  unmade := fun _ => rfl
  givenUp := fun _ => ⟨rfl, rfl⟩

/-- What the program can take of what there is. -/
theorem Idle.during (idle : account.Idle) (held : Holdings Resource)
    (enough : held ≤ account.given - account.taken) :
    During account (account.given - account.taken - held + held) account where
  given := by
    funext resource
    have solvent : account.taken resource ≤ account.given resource := idle.solvent resource
    have enough : held resource ≤ account.given resource - account.taken resource :=
      enough resource
    simp only [Pi.add_apply, Pi.sub_apply]
    omega
  single := idle.single
  released := rfl
  stage := rfl
  customFunctions := rfl
  printFn := rfl
  held := rfl
  made := rfl
  found := rfl

/-- A function that is new is not one of those that are live. -/
theorem Idle.owed_insert {function : JibFunction} (idle : start.Idle)
    (given : after.given = after.taken + (start.given - start.taken + function.holding true))
    (single : after.Single) :
    function ∉ start.live ∧ ∀ resource, start.Counts resource →
      after.given resource = after.taken resource +
        heldBy (insert function start.live) resource := by
  have inHand : ∀ resource, start.Counts resource → after.given resource =
      after.taken resource + (heldBy start.live resource +
        if function.holds resource then 1 else 0) := by
    intro resource counts
    rw [given, ← holding_apply (fun _ => rfl) function]
    have owed := idle.owed resource counts
    simp only [Pi.add_apply, Pi.sub_apply]
    omega
  have isNew : function ∉ start.live := by
    intro member
    have holds : function.holds (.jsClass function.jsClass) = true := by simp [JibFunction.holds]
    have counted := inHand (.jsClass function.jsClass) nofun
    have atMostOne := single (.jsClass function.jsClass) rfl
    have positive := heldBy_pos member holds
    rw [holds, if_pos rfl] at counted
    omega
  refine ⟨isNew, ?_⟩
  intro resource counts
  rw [heldBy_insert isNew]
  exact inHand resource counts

theorem During.solvent (during : During start inHand after) : after.taken ≤ after.given := by
  rw [during.given]
  exact fun resource => Nat.le_add_right _ _

theorem During.counts (during : During start inHand after) {resource : Resource}
    (counts : after.Counts resource) : start.Counts resource := by
  intro isProtection
  have protecting := counts isProtection
  rwa [Account.protecting, during.loaded, during.released] at protecting

/-- Nothing has been made or looked up. -/
theorem Idle.same (idle : start.Idle)
    (during : During start (start.given - start.taken) after) : after.Idle where
  owed := by
    intro resource counts
    have owed := idle.owed resource (during.counts counts)
    have isLive : after.live = start.live := by
      rw [live, live, during.customFunctions, during.printFn, during.held]
    rw [isLive, during.given]
    simp only [Pi.add_apply, Pi.sub_apply]
    omega
  solvent := during.solvent
  single := during.single
  nodup := by
    rw [during.customFunctions]
    exact idle.nodup
  made := by
    rw [live, during.customFunctions, during.printFn, during.held, during.made]
    exact idle.made
  found := by
    rw [during.found]
    exact idle.found
  unmade := by
    rw [during.stage, during.printFn]
    exact idle.unmade
  givenUp := by
    rw [during.released, during.customFunctions, during.printFn]
    exact idle.givenUp

/-- The program is given a function that was looked up. -/
theorem Idle.give {function : JibFunction} (idle : start.Idle)
    (noBody : function.bodyPtr = none)
    (during : During start (start.given - start.taken + function.wrapping true) after) :
    ({ after with
      held := function :: after.held
      found := function :: after.found } : Account).Idle := by
  have isHolding : function.wrapping true = function.holding true := by
    rw [JibFunction.holding, noBody]
    exact (add_zero _).symm
  rw [isHolding] at during
  obtain ⟨isNew, owed⟩ := idle.owed_insert during.given during.single
  have isLive : ({ after with
      held := function :: after.held
      found := function :: after.found } : Account).live = insert function start.live := by
    ext other
    simp only [mem_live, Finset.mem_insert, List.mem_cons, during.customFunctions, during.printFn,
      during.held]
    tauto
  exact
    { owed := by
        intro resource counts
        rw [isLive]
        exact owed resource (during.counts counts)
      solvent := during.solvent
      single := during.single
      nodup := by
        rw [during.customFunctions]
        exact idle.nodup
      made := by
        intro other member hasBody
        rw [isLive] at member
        rcases Finset.mem_insert.mp member with rfl | wasLive
        · exact (hasBody noBody).elim
        · rw [during.made]
          exact idle.made other wasLive hasBody
      found := by
        intro other member
        rcases List.mem_cons.mp member with rfl | wasFound
        · exact noBody
        · rw [during.found] at wasFound
          exact idle.found other wasFound
      unmade := by
        rw [during.stage, during.printFn]
        exact idle.unmade
      givenUp := by
        rw [during.released, during.customFunctions, during.printFn]
        exact idle.givenUp }

/-- A function has been made.  It is given to the program, or it is to print. -/
theorem Idle.append {function : JibFunction} (idle : start.Idle) (made held : List JibFunction)
    {printFn : Option JibFunction} (present : start.stage = .present)
    (notReleased : start.released = false)
    (during : During
      { start with customFunctions := start.customFunctions ++ [function], printFn := printFn }
      (start.given - start.taken + function.holding true) after)
    (isMade : function ∈ made) (isHeld : ∀ other ∈ held, other = function)
    (prints : printFn = start.printFn ∨ start.printFn = none ∧ printFn = some function) :
    ({ after with held := held ++ after.held, made := made ++ after.made } : Account).Idle := by
  obtain ⟨isNew, owed⟩ := idle.owed_insert during.given during.single
  have isLive : ({ after with held := held ++ after.held, made := made ++ after.made } :
      Account).live = insert function start.live := by
    ext other
    have isHeld := isHeld other
    simp only [mem_live, Finset.mem_insert, List.mem_append, List.mem_singleton,
      during.customFunctions, during.printFn, during.held]
    rcases prints with same | ⟨wasNone, isPrint⟩
    · rw [same]
      tauto
    · rw [wasNone, isPrint, Option.mem_some_iff, eq_comm]
      simp only [Option.not_mem_none]
      tauto
  exact
    { owed := by
        intro resource counts
        rw [isLive]
        exact owed resource (during.counts counts)
      solvent := during.solvent
      single := during.single
      nodup := by
        rw [during.customFunctions]
        apply List.Nodup.append idle.nodup (List.nodup_singleton function)
        rw [List.disjoint_singleton]
        exact fun member => isNew (mem_live.mpr (.inl member))
      made := by
        intro other member hasBody
        rw [isLive] at member
        rcases Finset.mem_insert.mp member with rfl | wasLive
        · exact List.mem_append_left _ isMade
        · rw [during.made]
          exact List.mem_append_right _ (idle.made other wasLive hasBody)
      found := by
        rw [during.found]
        exact idle.found
      unmade := by
        intro unmade
        have isPresent : after.stage = .present := during.stage.trans present
        rw [isPresent] at unmade
        cases unmade
      givenUp := by
        intro released
        have stays : after.released = false := during.released.trans notReleased
        rw [stays] at released
        cases released }

/-- A function that has another reference is given up. -/
theorem Idle.drop {function : JibFunction} (idle : account.Idle)
    (stays : function ∈ account.customFunctions ∨ function ∈ account.printFn ∨
      function ∈ account.held.erase function) :
    ({ account with held := account.held.erase function } : Account).Idle := by
  have isLive : ({ account with held := account.held.erase function } : Account).live =
      account.live := by
    ext other
    simp only [mem_live]
    by_cases same : other = function
    · subst same
      have wasHeld : other ∈ account.held.erase other → other ∈ account.held :=
        List.mem_of_mem_erase
      tauto
    · rw [List.mem_erase_of_ne same]
  exact
    { owed := by
        rw [isLive]
        exact idle.owed
      solvent := idle.solvent
      single := idle.single
      nodup := idle.nodup
      made := by
        rw [isLive]
        exact idle.made
      found := idle.found
      unmade := idle.unmade
      givenUp := idle.givenUp }

/-- What a live function holds can be taken. -/
theorem Idle.holding_le {function : JibFunction} (idle : account.Idle)
    (isLive : function ∈ account.live) :
    function.holding account.protecting ≤ account.given - account.taken := by
  intro resource
  by_cases counts : account.Counts resource
  · have owed := idle.owed resource counts
    rw [holding_apply counts, ← heldBy_erase isLive] at *
    simp only [Pi.sub_apply]
    omega
  · rw [holding_of_not_counted counts]
    exact Nat.zero_le _

/-- The last reference to a function has been given up. -/
theorem Idle.deallocate {function : JibFunction} (idle : start.Idle)
    (isHeld : function ∈ start.held) (notCustom : function ∉ start.customFunctions)
    (notPrint : function ∉ start.printFn) (notElse : function ∉ start.held.erase function)
    (during : During start (start.given - start.taken - function.holding start.protecting) after) :
    ({ after with held := after.held.erase function } : Account).Idle := by
  have wasLive : function ∈ start.live := mem_live.mpr (.inr (.inr isHeld))
  have isLive : ({ after with held := after.held.erase function } : Account).live =
      start.live.erase function := by
    ext other
    simp only [mem_live, Finset.mem_erase, during.customFunctions, during.printFn, during.held]
    by_cases same : other = function
    · subst same
      tauto
    · rw [List.mem_erase_of_ne same]
      tauto
  exact
    { owed := by
        intro resource counts
        have counts := during.counts counts
        have owed := idle.owed resource counts
        rw [isLive, during.given]
        rw [← heldBy_erase wasLive] at owed
        simp only [Pi.add_apply, Pi.sub_apply]
        rw [holding_apply counts]
        omega
      solvent := during.solvent
      single := during.single
      nodup := by
        rw [during.customFunctions]
        exact idle.nodup
      made := by
        rw [isLive, during.made]
        exact fun other member => idle.made other (Finset.mem_of_mem_erase member)
      found := by
        rw [during.found]
        exact idle.found
      unmade := by
        rw [during.stage, during.printFn]
        exact idle.unmade
      givenUp := by
        rw [during.released, during.customFunctions, during.printFn]
        exact idle.givenUp }

theorem mem_dropped {function : JibFunction} :
    function ∈ account.dropped ↔ function ∈ account.customFunctions ∧
      function ∉ account.held ∧ function ∉ account.printFn := by
  simp [dropped]

theorem mem_droppedPrint {function : JibFunction} :
    function ∈ account.droppedPrint.toList ↔
      function ∈ account.printFn ∧ function ∉ account.held := by
  apply Option.mem_toList.trans
  apply Option.mem_filter_iff.trans
  rw [decide_eq_true_eq]

/-- Functions that the program holds stay, the others only the `Jib` held. -/
theorem heldBy_live (account : Account) (resource : Resource) :
    heldBy account.live resource = heldBy account.held.toFinset resource +
      (heldBy account.droppedPrint.toList.toFinset resource +
        heldBy account.dropped.toFinset resource) := by
  have split : account.live = account.held.toFinset ∪
      (account.droppedPrint.toList.toFinset ∪ account.dropped.toFinset) := by
    ext function
    simp only [mem_live, Finset.mem_union, List.mem_toFinset, mem_dropped, mem_droppedPrint]
    tauto
  have apart : Disjoint account.droppedPrint.toList.toFinset account.dropped.toFinset := by
    rw [Finset.disjoint_left]
    intro function
    simp only [List.mem_toFinset, mem_dropped, mem_droppedPrint]
    tauto
  have notHeld : Disjoint account.held.toFinset
      (account.droppedPrint.toList.toFinset ∪ account.dropped.toFinset) := by
    rw [Finset.disjoint_left]
    intro function
    simp only [Finset.mem_union, List.mem_toFinset, mem_dropped, mem_droppedPrint]
    tauto
  rw [split, heldBy_union notHeld, heldBy_union apart]

/-- What the functions hold that only the `Jib` holds. -/
def droppedHolding (account : Account) : Holdings Resource :=
  (account.droppedPrint.toList.map (JibFunction.holding account.protecting)).sum +
    (account.dropped.map (JibFunction.holding account.protecting)).sum

theorem droppedHolding_apply (nodup : account.customFunctions.Nodup) {resource : Resource}
    (counts : account.Counts resource) : account.droppedHolding resource =
      heldBy account.droppedPrint.toList.toFinset resource +
        heldBy account.dropped.toFinset resource := by
  have printOnce : account.droppedPrint.toList.Nodup := by
    cases account.droppedPrint <;> simp
  have once : account.dropped.Nodup := nodup.filter _
  rw [droppedHolding, Pi.add_apply, sum_holding counts printOnce, sum_holding counts once]

theorem Idle.droppedHolding_le (idle : account.Idle) :
    account.droppedHolding ≤ account.given - account.taken := by
  intro resource
  by_cases counts : account.Counts resource
  · have owed := idle.owed resource counts
    rw [heldBy_live] at owed
    rw [droppedHolding_apply idle.nodup counts]
    simp only [Pi.sub_apply]
    omega
  · rw [droppedHolding, Pi.add_apply, sum_holding_of_not_counted counts,
      sum_holding_of_not_counted counts]
    exact Nat.zero_le _

/-- The `Jib` has been released. -/
theorem Idle.releaseBody (idle : start.Idle)
    (during : During { start with customFunctions := [], printFn := none, released := true }
      (start.given - start.taken - start.droppedHolding) after) : after.Idle where
  owed := by
    intro resource counts
    have notProtection : resource.isProtection = true → False := by
      intro isProtection
      have protecting : (after.loaded && !after.released) = true := counts isProtection
      rw [during.released, Bool.not_true, Bool.and_false] at protecting
      cases protecting
    have counts : start.Counts resource := fun isProtection => (notProtection isProtection).elim
    have owed := idle.owed resource counts
    have isLive : after.live = start.held.toFinset := by
      rw [live, during.customFunctions, during.printFn, during.held]
      rfl
    rw [heldBy_live] at owed
    rw [isLive, during.given]
    simp only [Pi.add_apply, Pi.sub_apply]
    rw [droppedHolding_apply idle.nodup counts]
    omega
  solvent := during.solvent
  single := during.single
  nodup := by
    rw [during.customFunctions]
    exact List.nodup_nil
  made := by
    intro function isLive
    rw [during.made]
    apply idle.made
    rw [mem_live, during.customFunctions, during.printFn, during.held] at isLive
    simp only [List.not_mem_nil, Option.not_mem_none, false_or] at isLive
    exact mem_live.mpr (.inr (.inr isLive))
  found := by
    rw [during.found]
    exact idle.found
  unmade := fun _ => during.printFn
  givenUp := fun _ => ⟨during.customFunctions, during.printFn⟩

/-! ## Functions that are looked up -/

/-- Whatever happens before, what comes next is all that counts. -/
theorem satisfies_next {β : Type} {post : β → Account → Prop} {program : Operation α}
    {continuation : α → Operation β} (state : Account)
    (next : ∀ value state, (continuation value).Satisfies effect (fun _ _ => True) post state) :
    (program >>= continuation).Satisfies effect (fun _ _ => True) post state := by
  have anything : program.Satisfies effect (fun _ _ => True) (fun _ _ => True) state :=
    satisfies_of_preserved (fun _ _ _ _ _ _ => trivial) (fun _ _ _ => trivial) program trivial
  exact (anything.mono fun value state _ => next value state).bind

/-- A callable object has no private data. -/
theorem bodyless_jsValueToFunction (context : JSGlobalContextRef) (value : Option JSValueRef)
    (state : Account) :
    (jsValueToFunction context value).Satisfies effect (fun _ _ => True)
      (fun made _ => ∀ function ∈ made, function.bodyPtr = none) state := by
  cases value with
  | none => exact fun function member => by cases member
  | some value =>
      refine ⟨trivial, ?_⟩
      intro isUndefined looked _
      cases isUndefined with
      | true => exact fun function member => by cases member
      | false =>
          refine ⟨trivial, ?_⟩
          intro isFunction tested moves
          cases isFunction with
          | false => exact fun function member => by cases member
          | true =>
              have noData : looked.privateOf value = none := moves.answers rfl
              have samePrivate := moves.privateOf context value rfl
              refine ⟨trivial, ?_⟩
              intro data read moves
              have isData : data = tested.privateOf value := moves.answers
              rw [samePrivate, noData] at isData
              refine ⟨trivial, ?_⟩
              intro _ guarded _
              refine ⟨trivial, ?_⟩
              intro jsClass after _ function member
              obtain rfl := Option.mem_some_iff.mp member
              exact isData

theorem bodyless_subscript (jib : JibFields) (exec : HalfHitch) (state : Account) :
    (subscriptFunction jib exec).Satisfies effect (fun _ _ => True)
      (fun made _ => ∀ function ∈ made, function.bodyPtr = none) state := by
  refine ⟨trivial, ?_⟩
  intro released read _
  cases released with
  | true => exact fun function member => by cases member
  | false =>
      apply Satisfies.locked
      exact satisfies_next read fun value state =>
        bodyless_jsValueToFunction jib.context value state

/-- Operations that make no function give none with a body. -/
theorem bodyless_program (jib : JibFields) {operation : PublicOperation D}
    (notNew : ∀ name body, operation ≠ .newFunction name body) (state : Account) :
    (operation.program jib).Satisfies effect (fun _ _ => True)
      (fun reply _ => ∀ function ∈ reply.functions, function.bodyPtr = none) state := by
  have others : ∀ {β : Type} {program : Operation β} {wrap : β → Reply D},
      (∀ value, (wrap value).functions = []) →
        (program >>= fun value => .done (wrap value)).Satisfies effect (fun _ _ => True)
          (fun reply _ => ∀ function ∈ reply.functions, function.bodyPtr = none) state := by
    intro β program wrap noFunctions
    apply satisfies_next state
    intro value _ function member
    rw [noFunctions] at member
    cases member
  have wraps : ∀ made : Option JibFunction, ∀ after : Account,
      (∀ function ∈ made, function.bodyPtr = none) →
        ∀ function ∈ (Reply.function made : Reply D).functions, function.bodyPtr = none :=
    fun made _ noBody function member => noBody function (by simpa [Reply.functions] using member)
  cases operation with
  | newFunction name body => exact (notNew name body rfl).elim
  | subscript reader exec =>
      cases reader with
      | function => exact ((bodyless_subscript jib exec state).mono wraps).bind
      | _ => exact others fun _ => rfl
  | call reader function arguments =>
      cases reader with
      | function =>
          have called : (callFunction jib function arguments).Satisfies effect (fun _ _ => True)
              (fun made _ => ∀ function ∈ made, function.bodyPtr = none) state :=
            satisfies_next state fun value state =>
              bodyless_jsValueToFunction jib.context value state
          exact (called.mono wraps).bind
      | _ => exact others fun _ => rfl
  | _ => exact others fun _ => rfl

/-! ## Operations -/

theorem Idle.begins (idle : account.Idle) :
    During account (account.given - account.taken + 0) account :=
  idle.during 0 fun _ => Nat.zero_le _

theorem Reply.functions_cases (reply : Reply D) :
    reply.functions = [] ∨ ∃ function, reply.functions = [function] := by
  cases reply with
  | function made =>
      cases made with
      | none => exact .inl rfl
      | some function => exact .inr ⟨function, rfl⟩
  | _ => exact .inl rfl

theorem satisfies_lookup (jib : JibFields) {operation : PublicOperation D}
    (notNew : ∀ name body, operation ≠ .newFunction name body) (idle : account.Idle) :
    (operation.program jib).Satisfies effect Enough
      (fun reply after => ((AccountOperation.perform operation).finish reply after).Idle)
      account := by
  apply ((satisfies_of_balances (operation.holdings_program jib notNew) idle.begins).and
    (bodyless_program jib notNew account)).mono
  rintro reply after ⟨⟨_, rfl, during⟩, noBody⟩
  have finished : (AccountOperation.perform operation).finish reply after =
      { after with
        held := reply.functions ++ after.held
        found := reply.functions ++ after.found } := by
    cases operation with
    | newFunction name body => exact (notNew name body rfl).elim
    | _ => rfl
  rw [finished]
  rw [Reply.wrapping] at during
  rcases Reply.functions_cases reply with nothing | ⟨function, isFound⟩
  · rw [nothing] at during ⊢
    rw [List.map_nil, List.sum_nil, add_zero] at during
    exact idle.same during
  · rw [isFound] at during noBody ⊢
    rw [List.map_singleton, List.sum_singleton] at during
    exact idle.give (noBody function (by simp)) during

theorem satisfies_perform (jib : JibFields) (operation : PublicOperation D)
    (idle : account.Idle) (present : account.stage = .present) :
    (operation.program jib).Satisfies effect Enough
      (fun reply after => ((AccountOperation.perform operation).finish reply after).Idle)
      account := by
  by_cases isNew : ∃ name body, operation = .newFunction name body
  · obtain ⟨name, body, rfl⟩ := isNew
    have loaded : account.loaded = true := by simp [Account.loaded, present]
    have during := idle.begins
    rw [add_zero] at during
    refine Satisfies.bind ((satisfies_newFunction jib name body loaded during).mono ?_)
    intro made after holds
    cases made with
    | none => exact idle.same holds
    | some function =>
        obtain ⟨notReleased, during⟩ := holds
        exact idle.append [function] [function] present notReleased during (by simp) (by simp)
          (.inl rfl)
  · exact satisfies_lookup jib (fun name body same => isNew ⟨name, body, same⟩) idle

theorem satisfies_deallocate {function : JibFunction} (idle : account.Idle)
    (isHeld : function ∈ account.held) (notCustom : function ∉ account.customFunctions)
    (notPrint : function ∉ account.printFn) (notElse : function ∉ account.held.erase function) :
    function.deinit.Satisfies effect Enough
      (fun _ after => ({ after with held := after.held.erase function } : Account).Idle)
      account := by
  have isLive : function ∈ account.live := mem_live.mpr (.inr (.inr isHeld))
  have during := idle.during _ (idle.holding_le isLive)
  apply (satisfies_of_balances (holdings_deinit function) during).mono
  rintro _ after ⟨_, rfl, during⟩
  rw [add_zero] at during
  exact idle.deallocate isHeld notCustom notPrint notElse during

theorem satisfies_release (jib : JibFields) (idle : account.Idle) :
    (releaseBody jib account.dropped account.droppedPrint).Satisfies effect Enough
      (fun _ after => after.Idle ∧ after.released = true) account := by
  have during := idle.during _ idle.droppedHolding_le
  rw [droppedHolding, ← add_assoc] at during
  exact (satisfies_releaseBody jib during).mono fun _ _ during =>
    ⟨idle.releaseBody during, during.released⟩

/-- The constructor is at work, or the last strong reference has been given up. -/
theorem Idle.enter (idle : account.Idle) {stage : Stage}
    (fewer : stage ≠ .gone → account.stage ≠ .gone) (stays : stage ≠ .unmade) :
    ({ account with stage := stage } : Account).Idle where
  owed := by
    intro resource counts
    apply idle.owed
    intro isProtection
    have isProtecting := counts isProtection
    simp only [Account.protecting, Account.loaded, Bool.and_eq_true, decide_eq_true_eq]
      at isProtecting ⊢
    exact ⟨fewer isProtecting.1, isProtecting.2⟩
  solvent := idle.solvent
  single := idle.single
  nodup := idle.nodup
  made := idle.made
  found := idle.found
  unmade := fun unmade => (stays unmade).elim
  givenUp := idle.givenUp

/-- What the constructor makes first. -/
def makeFields : Operation JibFields := do
  let group ← jsContextGroupCreate
  let context ← jsGlobalContextCreateInGroup group
  let global ← jsContextGetGlobalObject context
  let undefined ← jsValueMakeUndefined context
  let trueValue ← jsValueMakeBoolean context true
  let falseValue ← jsValueMakeBoolean context false
  return ⟨group, context, global, undefined, trueValue, falseValue⟩

theorem neutral_makeFields : Neutral makeFields := by
  simp [makeFields]

theorem satisfies_balanced {program : Operation α}
    (balances : (holdings start.released start.loaded).Balances 0 Spent program)
    (during : During start others account) :
    program.Satisfies effect Enough (fun _ after => During start others after) account := by
  rw [← add_zero others] at during
  apply (satisfies_of_balances balances during).mono
  rintro value after ⟨_, rfl, during⟩
  rwa [add_zero] at during

/-- The constructor makes a function to print with. -/
theorem satisfies_initJib (clone : Option JibFields) (printBody : JibFunctionBody)
    (idle : account.Idle) (present : account.stage = .present)
    (noPrint : account.printFn = none) :
    (initJib clone printBody).Satisfies effect Enough
      (fun _ after =>
        ({ after with made := after.printFn.toList ++ after.made } : Account).Idle) account := by
  have loaded : account.loaded = true := by simp [Account.loaded, present]
  have during := idle.begins
  rw [add_zero] at during
  change Satisfies _ _ _ (makeFields >>= fun jib => copyGlobals jib clone >>= fun _ =>
    setGlobalValue jib globalName jib.global >>= fun _ =>
      newFunction jib printName printBody >>= fun printFn => setPrintFn printFn >>= fun _ =>
        installConsole jib printFn >>= fun _ => .done jib) _
  refine Satisfies.bind ((satisfies_balanced (holdings_neutral neutral_makeFields) during).mono ?_)
  intro jib fields during
  refine Satisfies.bind
    ((satisfies_balanced (holdings_neutral (neutral_copyGlobals jib clone)) during).mono ?_)
  intro _ copied during
  refine Satisfies.bind
    ((satisfies_balanced (holdings_setGlobalValue jib globalName jib.global) during).mono ?_)
  intro _ assigned during
  refine Satisfies.bind ((satisfies_newFunction jib printName printBody loaded during).mono ?_)
  intro printFn appended holds
  cases printFn with
  | none =>
      refine ⟨enough_of_takes_eq_zero holds rfl, ?_⟩
      intro _ unset moves
      have during := holds.setPrint moves
      have same : ({ account with printFn := none } : Account) = account := by rw [← noPrint]
      rw [same] at during
      change Satisfies _ _ _ (installConsole jib none >>= fun _ => .done jib) _
      refine Satisfies.bind ((satisfies_balanced (holdings_installConsole jib none) during).mono ?_)
      intro _ after during
      have nothing : after.printFn.toList = [] :=
        congrArg Option.toList (during.printFn.trans noPrint)
      change ({ after with made := after.printFn.toList ++ after.made } : Account).Idle
      rw [nothing]
      exact idle.same during
  | some function =>
      obtain ⟨notReleased, during⟩ := holds
      refine ⟨enough_of_takes_eq_zero during rfl, ?_⟩
      intro _ set moves
      have during := during.setPrint moves
      change Satisfies _ _ _ (installConsole jib (some function) >>= fun _ => .done jib) _
      refine Satisfies.bind
        ((satisfies_balanced (holdings_installConsole jib (some function)) during).mono ?_)
      intro _ after during
      have isPrint : after.printFn.toList = [function] := congrArg Option.toList during.printFn
      change ({ after with made := after.printFn.toList ++ after.made } : Account).Idle
      rw [isPrint]
      exact idle.append [function] [] present notReleased during (by simp) (by simp)
        (.inr ⟨noPrint, rfl⟩)

/-- Every operation finds what it releases and leaves what live functions hold. -/
theorem satisfies_operation (jib : JibFields) {operation : AccountOperation D}
    (idle : account.Idle) (enabled : operation.Enabled account) :
    (operation.program jib).Satisfies effect Enough
      (fun reply after => (operation.finish reply after).Idle ∧
        (operation.releases = true → after.released = true)) (operation.enter account) := by
  cases operation with
  | create clone printBody =>
      have unmade : account.stage = .unmade := enabled
      have entered : ({ account with stage := .present } : Account).Idle :=
        idle.enter (by simp [unmade]) (by simp)
      exact ((satisfies_initJib clone printBody entered rfl (idle.unmade unmade)).mono
        fun _ _ idle => ⟨idle, nofun⟩).bind
  | perform operation =>
      exact (satisfies_perform jib operation idle enabled).mono fun _ _ idle => ⟨idle, nofun⟩
  | drop function => exact ⟨idle.drop enabled.2, nofun⟩
  | deallocate function =>
      obtain ⟨isHeld, notCustom, notPrint, notElse⟩ := enabled
      exact ((satisfies_deallocate idle isHeld notCustom notPrint notElse).mono
        fun _ _ idle => ⟨idle, nofun⟩).bind
  | release dropped droppedPrint =>
      obtain ⟨_, rfl, rfl⟩ := enabled
      exact ((satisfies_release jib idle).mono fun _ _ ⟨idle, released⟩ =>
        ⟨idle, fun _ => released⟩).locked.bind
  | deinitJib dropped droppedPrint =>
      obtain ⟨_, rfl, rfl⟩ := enabled
      have entered : ({ account with stage := .gone } : Account).Idle :=
        idle.enter (by simp) (by simp)
      exact ((satisfies_release jib entered).mono fun _ _ ⟨idle, released⟩ =>
        ⟨idle, fun _ => released⟩).locked.bind

/-- What has been released stays so, and a `Jib` that is there stays there while
an operation runs. -/
structure Later (start account : Account) : Prop where
  released : start.released = true → account.released = true
  stage : account.stage = start.stage

theorem satisfies_later (program : Operation α) :
    program.Satisfies effect (fun _ _ => True) (fun _ after => Later start after) start :=
  satisfies_of_preserved (fun _ _ _ _ later moves =>
    ⟨fun released => by rw [moves.released, later.released released, Bool.true_or],
      moves.stage.trans later.stage⟩)
    (fun _ _ _ => trivial) program ⟨id, rfl⟩

/-- A `Jib` that is gone has been released. -/
def Settled (account : Account) : Prop :=
  account.Idle ∧ (account.stage = .gone → account.released = true)

theorem settled_initial : initial.Settled :=
  ⟨idle_initial, nofun⟩

theorem contract_accountMachine (jib : JibFields) :
    (accountMachine (D := D) jib).Contract Enough Settled
      (fun operation reply after => (operation.finish reply after).Settled ∧
        (operation.releases = true → after.released = true)) where
  operations := by
    rintro operation account ⟨idle, gone⟩ enabled
    apply ((satisfies_operation jib idle enabled).and (satisfies_later _)).mono
    rintro reply after ⟨⟨idle, releases⟩, later⟩
    refine ⟨⟨idle, ?_⟩, releases⟩
    rw [operation.finish_released, operation.finish_stage, later.stage]
    intro isGone
    cases operation with
    | create clone printBody => cases isGone
    | deinitJib dropped droppedPrint => exact releases rfl
    | _ => exact later.released (gone isGone)
  finish := fun _ _ _ ends => ends.1

end Account

open Account

/-- In every run, nothing is released that has not been created, protected or
retained or that has been released already.  When `release` or `deinit` returns,
the `Jib` has been released and holds no function.  Between operations, the
objects of a `Jib` that has not been released are protected as often as live
functions wrap them, and every class and body that has not been released belongs
to one live function, which for a body is one that `new(function:body:)` made.
Functions that were looked up have no body.  A `Jib` that has been released holds
no function: once the program holds none, every class and body is released. -/
theorem protections_balance {jib : JibFields}
    {config : Machine.Config interface (AccountOperation D) (Reply D) Account}
    (reaches : (accountMachine jib).Reaches .initial config) :
    (∀ operation command next, config.running = some (operation, .call command next) →
        Enough command config.state) ∧
      (∀ operation reply, config.running = some (operation, .done reply) →
        operation.releases = true → config.state.released = true ∧
          config.state.customFunctions = [] ∧ config.state.printFn = none) ∧
      (config.running = none →
        (config.state.protecting = true → ∀ object,
          config.state.given (.protection object) = config.state.taken (.protection object) +
            heldBy config.state.live (.protection object)) ∧
        (∀ reference, config.state.given (.jsClass reference) =
          config.state.taken (.jsClass reference) +
            heldBy config.state.live (.jsClass reference) ∧
              heldBy config.state.live (.jsClass reference) ≤ 1) ∧
        (∀ address, config.state.given (.body address) =
          config.state.taken (.body address) + heldBy config.state.live (.body address) ∧
            heldBy config.state.live (.body address) ≤ 1) ∧
        (∀ function ∈ config.state.live, function.bodyPtr ≠ none →
          function ∈ config.state.made) ∧
        (∀ function ∈ config.state.found, function.bodyPtr = none) ∧
        (config.state.stage = .gone → config.state.released = true) ∧
        (config.state.released = true →
          config.state.customFunctions = [] ∧ config.state.printFn = none ∧
            (config.state.held = [] → ∀ resource, resource.isProtection = false →
              config.state.given resource = config.state.taken resource))) := by
  have contract := contract_accountMachine (D := D) jib
  have continues := reaches.continues contract settled_initial
  refine ⟨?_, ?_, ?_⟩
  · intro operation command next issues
    exact reaches.needs contract settled_initial issues
  · intro operation reply ends releases
    rw [Machine.Config.Continues, ends] at continues
    obtain ⟨⟨idle, _⟩, released⟩ := continues
    have finished : operation.finish reply config.state = config.state := by
      cases operation <;> first | rfl | cases releases
    rw [finished] at idle
    exact ⟨released releases, idle.givenUp (released releases)⟩
  · intro isIdle
    rw [Machine.Config.Continues, isIdle] at continues
    obtain ⟨idle, gone⟩ := continues
    have single : ∀ resource, resource.isProtection = false →
        config.state.given resource = config.state.taken resource +
          heldBy config.state.live resource ∧ heldBy config.state.live resource ≤ 1 := by
      intro resource notProtection
      have owed := idle.owed resource (by simp [Counts, notProtection])
      have atMostOne := idle.single resource notProtection
      omega
    refine ⟨fun protecting object => idle.owed _ fun _ => protecting, fun reference => single _ rfl,
      fun address => single _ rfl, idle.made, idle.found, gone, ?_⟩
    intro released
    obtain ⟨noCustom, noPrint⟩ := idle.givenUp released
    refine ⟨noCustom, noPrint, ?_⟩
    intro noneHeld resource notProtection
    have nothingLives : config.state.live = ∅ := by
      rw [live, noCustom, noPrint, noneHeld]
      rfl
    have counted := (single resource notProtection).1
    rwa [nothingLives] at counted

/-! ## A run -/

namespace Account

/-- The answers of an engine that finds the function that it made, where it
looks for one. -/
def firstAnswer (account : Account) : (command : Command) → Answer command
  | .readReleased => account.released
  | .loadJib _ => if account.loaded then some someJib else none
  | .jsClassCreate =>
      if account.given (.jsClass 0) = account.taken (.jsClass 0) then 0 else 1
  | .makeRetainedPtr _ => some 0
  | .jsObjectMakeFunctionWithCallback _ _ => some 1
  | .jsObjectGetProperty _ _ _ => some 1
  | .jsObjectIsFunction _ object => account.privateOf object = none
  | .jsObjectGetPrivate object => account.privateOf object
  | command => emptyAnswer command

/-- An engine with these answers in which no object comes or goes. -/
def firstHandle : Handler interface Account :=
  fun command account => (account.firstAnswer command,
    { account with
      given := account.given +
        (holdings account.released account.loaded).gives command (account.firstAnswer command)
      taken := account.taken + (holdings account.released account.loaded).takes command
      customFunctions := customAfter account.customFunctions command
      printFn := printAfter account.printFn command
      released := account.released || command = .setReleased })

/-- The command cannot be answered in this way. -/
def refused (account : Account) : Command → Option Command
  | .jsClassCreate =>
      let jsClass : JSClassRef := account.firstAnswer .jsClassCreate
      if account.given (.jsClass jsClass) = account.taken (.jsClass jsClass) then none
      else some .jsClassCreate
  | .makeRetainedPtr body =>
      if account.given (.body 0) = account.taken (.body 0) then none
      else some (.makeRetainedPtr body)
  | _ => none

theorem answers_first {account : Account} {command : Command}
    (notRefused : account.refused command = none) :
    account.Answers command (account.firstAnswer command) := by
  cases command with
  | readReleased => exact rfl
  | loadJib function =>
      change (if account.loaded then some someJib else none).isSome = account.loaded
      cases account.loaded <;> rfl
  | jsClassCreate =>
      have isNew : account.given (.jsClass (account.firstAnswer .jsClassCreate)) =
          account.taken (.jsClass (account.firstAnswer .jsClassCreate)) := by
        simpa [refused] using notRefused
      exact isNew
  | makeRetainedPtr body =>
      have isNew : account.given (.body 0) = account.taken (.body 0) := by
        simpa [refused] using notRefused
      exact ⟨0, rfl, isNew⟩
  | jsObjectIsFunction context object => exact of_decide_eq_true
  | jsObjectGetPrivate object => exact rfl
  | _ => trivial

theorem yields_first {α : Type} {program : Operation α} {account : Account}
    (noneRefused : program.shows refused firstHandle account = []) :
    program.Yields effect account (program.run firstHandle account).1
      (program.run firstHandle account).2 := by
  induction program generalizing account with
  | done value => exact ⟨rfl, rfl⟩
  | acquire next ih => exact ih noneRefused
  | release next ih => exact ih noneRefused
  | call command next ih =>
      obtain ⟨notRefused, rest⟩ := List.append_eq_nil_iff.mp noneRefused
      have answers := answers_first (Option.toList_eq_nil_iff.mp notRefused)
      have moves : Moves command account (account.firstAnswer command)
          (firstHandle command account).2 :=
        ⟨answers, rfl, rfl, fun _ _ _ => rfl, rfl, rfl, rfl, rfl, rfl, rfl, rfl⟩
      exact ⟨_, _, moves, ih _ rest⟩

/-- One more operation, with an engine that has these answers. -/
theorem reaches_first {account : Account} (operation : AccountOperation Unit)
    (reaches : (accountMachine (D := Unit) someJib).Reaches .initial ⟨account, none⟩)
    (enabled : operation.Enabled account)
    (noneRefused : (operation.program someJib).shows refused firstHandle
      (operation.enter account) = []) :
    (accountMachine (D := Unit) someJib).Reaches .initial
      ⟨(accountMachine someJib).perform firstHandle operation account, none⟩ :=
  reaches.operation operation enabled (yields_first noneRefused)

end Account

/-- `print` is looked up. -/
def lookUpPrint : AccountOperation Unit :=
  .perform (.subscript .function printName)

/-- What `print` is when it has been looked up. -/
def foundPrint : JibFunction :=
  ⟨1, some 1, none⟩

def afterCreate : Account :=
  (accountMachine someJib).perform firstHandle (.create none 0 : AccountOperation Unit) .initial

def afterLookup : Account :=
  (accountMachine someJib).perform firstHandle lookUpPrint afterCreate

def afterRelease : Account :=
  (accountMachine someJib).perform firstHandle
    (.release afterLookup.dropped afterLookup.droppedPrint : AccountOperation Unit) afterLookup

def afterDeallocate : Account :=
  (accountMachine someJib).perform firstHandle
    (.deallocate foundPrint : AccountOperation Unit) afterRelease

theorem reaches_afterLookup :
    (accountMachine (D := Unit) someJib).Reaches .initial ⟨afterLookup, none⟩ := by
  have created := reaches_first (.create none 0) .refl rfl (by decide +kernel)
  have present : afterCreate.stage = .present := by decide +kernel
  exact reaches_first lookUpPrint created present (by decide +kernel)

theorem reaches_afterDeallocate :
    (accountMachine (D := Unit) someJib).Reaches .initial ⟨afterDeallocate, none⟩ := by
  have released := reaches_first (.release afterLookup.dropped afterLookup.droppedPrint)
    reaches_afterLookup ⟨by decide +kernel, rfl, rfl⟩ (by decide +kernel)
  have isHeld : foundPrint ∈ afterRelease.held := by decide +kernel
  have notCustom : foundPrint ∉ afterRelease.customFunctions := by decide +kernel
  have notPrint : foundPrint ∉ afterRelease.printFn := by decide +kernel
  have notElse : foundPrint ∉ afterRelease.held.erase foundPrint := by decide +kernel
  exact reaches_first (.deallocate foundPrint) released ⟨isHeld, notCustom, notPrint, notElse⟩
    (by decide +kernel)

/-- The function that was looked up protects the object of `print` once more.
The `Jib` is released before it: in the end nothing is left. -/
theorem protections_balance_print :
    (afterLookup.given (.protection 1) = afterLookup.taken (.protection 1) +
        heldBy afterLookup.live (.protection 1) ∧
      heldBy afterLookup.live (.protection 1) = 2) ∧
    afterDeallocate.given (.jsClass 1) = 1 ∧
      ∀ resource, resource.isProtection = false →
        afterDeallocate.given resource = afterDeallocate.taken resource :=
  ⟨⟨((protections_balance reaches_afterLookup).2.2 rfl).1 (by decide +kernel) 1,
      by decide +kernel⟩, by decide +kernel,
    ((protections_balance reaches_afterDeallocate).2.2 rfl).2.2.2.2.2.2 (by decide +kernel)
      |>.2.2 (by decide +kernel)⟩

end Jib.JSC
