import Jib.QuickJSPublicOperations

/-!
# Temporaries of the QuickJS backend

A run of an operation frees each value, atom and C string that the engine gave
it, and nothing else, whatever the engine answers.  Where a value is returned,
the one reference to it is what is left.
-/

namespace Jib.QuickJS

open CommandProgram Program ResourceLedgers

variable {D α State : Type} {handle : Handler interface State}

/-- `JS_DupValue` returns its argument. -/
def Duplicates (handle : Handler interface State) : Prop :=
  ∀ value state, (handle (.jsDupValue value) state).1 = value

/-- Begun with nothing in hand, every run takes only what it was given before,
and ends with the references that `count` says its result has. -/
def Leaves (handle : Handler interface State) (count : α → References)
    (program : Operation α) : Prop :=
  ∀ state, ledger.Settles handle (count (program.run handle state).1) program state 0

/-- The operations whose replies are no references: evaluation, and calls and
subscripts that do not give a function. -/
def PublicOperation.IsTemporary : PublicOperation D → Prop
  | .eval _ => True
  | .subscript reader _ => reader ≠ .function
  | .call reader _ _ => reader ≠ .function
  | .callNone _ _ => True
  | _ => False

theorem leaves_of_balances {program : Operation α} {count : α → References}
    (duplicates : Duplicates handle) (balances : Balances 0 (Yielding count) program) :
    Leaves handle count program := by
  intro state
  have answers : ∀ command state, Answers command (handle command state).1 := by
    intro command state
    cases command with
    | jsDupValue value => exact duplicates value state
    | _ => trivial
  obtain ⟨_, rfl, settles⟩ := (balances_iff.mp balances).settles answers state
  exact settles

/-! ## Readers -/

/-- A reader that does not give a function converts a value and leaves nothing. -/
structure Spending (reader : Reader D) (α : Type) (convert : JSValue → Operation (Option α))
    (wrap : Option α → Reply D) : Prop where
  spends : ∀ value, Balances 0 Spent (convert value)
  subscript : ∀ exec,
    reader.subscript exec =
      (typedSubscript convert exec >>= fun value => .done (wrap value))
  call : ∀ function arguments,
    reader.call function arguments =
      (typedCall convert function arguments >>= fun value => .done (wrap value))

theorem Reader.spending {reader : Reader D} (notFunction : reader ≠ .function) :
    ∃ α convert wrap, Spending reader α convert wrap := by
  cases reader with
  | decoded decode =>
      exact ⟨_, _, .decoded, balances_jsValueToDecodable decode, fun _ => rfl, fun _ _ => rfl⟩
  | function => exact (notFunction rfl).elim
  | hitch => exact ⟨_, _, .text, balances_jsValueToHitch, fun _ => rfl, fun _ _ => rfl⟩
  | halfhitch => exact ⟨_, _, .text, balances_jsValueToHitch, fun _ => rfl, fun _ _ => rfl⟩
  | string => exact ⟨_, _, .text, balances_jsValueToHitch, fun _ => rfl, fun _ _ => rfl⟩
  | date parse =>
      exact ⟨_, _, fun text => .decoded (text.bind parse), balances_jsValueToHitch,
        fun _ => bind_assoc _ _ _, fun _ _ => bind_assoc _ _ _⟩
  | double => exact ⟨_, _, .double, balances_jsValueToDouble, fun _ => rfl, fun _ _ => rfl⟩
  | int => exact ⟨_, _, .int, balances_jsValueToInt, fun _ => rfl, fun _ _ => rfl⟩
  | bool => exact ⟨_, _, .bool, balances_jsValueToBool, fun _ => rfl, fun _ _ => rfl⟩
  | json => exact ⟨_, _, .text, balances_jsValueToJson, fun _ => rfl, fun _ _ => rfl⟩

/-- Operations that do not give functions leave nothing. -/
theorem PublicOperation.IsTemporary.balances {operation : PublicOperation D}
    (isTemporary : operation.IsTemporary) (global : JSValue) :
    Balances 0 Spent (operation.program global) := by
  cases operation with
  | eval script => exact balances_reply (balances_eval script) _ fun _ _ isSpent => isSpent
  | subscript reader exec =>
      obtain ⟨_, _, _, spending⟩ := reader.spending isTemporary
      rw [program, spending.subscript]
      exact balances_reply (balances_typedSubscript spending.spends rfl exec) _
        fun _ _ isSpent => isSpent
  | call reader function arguments =>
      obtain ⟨_, _, _, spending⟩ := reader.spending isTemporary
      rw [program, spending.call]
      exact balances_reply (balances_typedCall spending.spends rfl function arguments) _
        fun _ _ isSpent => isSpent
  | callNone function arguments =>
      have callNone : Balances 0 Spent (QuickJS.callNone function arguments) :=
        balances_typedCall (fun _ => balances_done rfl) rfl function arguments
      exact balances_reply callNone _ fun _ _ isSpent => isSpent
  | _ => exact isTemporary.elim

theorem balances_callbackResult (result : Option JibUnknown) :
    Balances 0 (Yielding JSValue.references) (callbackResult result) := by
  cases result with
  | none => exact balances_done rfl
  | some result => exact balances_createJibValue result

/-! ## Runs -/

/-- On every path, temporaries are freed exactly once and nothing else is; a
value that is returned, to the caller or to the engine, carries exactly one
reference. -/
theorem temporaries_settle (duplicates : Duplicates handle) (global : JSValue) :
    (∀ operation : PublicOperation D, operation.IsTemporary →
        Leaves handle (fun _ => 0) (operation.program global)) ∧
      Leaves handle (fun _ => 0) recordException ∧
      (∀ value, Leaves handle (fun _ => 0) (jsValueToJson value)) ∧
      (∀ hitches, Leaves handle JSValue.references (createArrayJibValue hitches)) ∧
      (∀ argument, Leaves handle JSValue.references (convertArgument argument)) ∧
      (∀ result, Leaves handle JSValue.references (callbackResult result)) ∧
      (∀ exec, Leaves handle optionReferences (resolve exec)) ∧
      ∀ function arguments, Leaves handle optionReferences (callJSValue function arguments) := by
  refine ⟨?_, ?_, ?_, ?_, ?_, ?_, ?_, ?_⟩
  · intro operation isTemporary
    exact leaves_of_balances duplicates (isTemporary.balances global)
  · exact leaves_of_balances duplicates balances_recordException
  · intro value
    exact leaves_of_balances duplicates (balances_jsValueToJson value)
  · intro hitches
    exact leaves_of_balances duplicates (balances_createArrayJibValue hitches)
  · intro argument
    exact leaves_of_balances duplicates (balances_convertArgument argument)
  · intro result
    exact leaves_of_balances duplicates (balances_callbackResult result)
  · intro exec
    exact leaves_of_balances duplicates (balances_resolve exec)
  · intro function arguments
    exact leaves_of_balances duplicates (balances_callJSValue function arguments)

/-- An engine whose scripts give the object at 0. -/
def objectHandle : Handler interface Unit :=
  fun command state => (constantAnswer (.object 0) command, state)

theorem temporaries_settle_object :
    (∀ operation : PublicOperation Unit, operation.IsTemporary →
        Leaves objectHandle (fun _ => 0) (operation.program .undefined)) ∧
      Leaves objectHandle (fun _ => 0) recordException ∧
      (∀ value, Leaves objectHandle (fun _ => 0) (jsValueToJson value)) ∧
      (∀ hitches, Leaves objectHandle JSValue.references (createArrayJibValue hitches)) ∧
      (∀ argument, Leaves objectHandle JSValue.references (convertArgument argument)) ∧
      (∀ result, Leaves objectHandle JSValue.references (callbackResult result)) ∧
      (∀ exec, Leaves objectHandle optionReferences (resolve exec)) ∧
      ∀ function arguments,
        Leaves objectHandle optionReferences (callJSValue function arguments) :=
  temporaries_settle (fun _ _ => rfl) .undefined

end Jib.QuickJS
