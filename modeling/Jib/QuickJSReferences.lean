import Jib.QuickJSOperations
import Jib.ResourceLedgers

/-!
# References in flight

Which references the engine gives to its caller and takes from it, and what
that makes of the references that the Swift code has in hand.  A program
balances when it never gives away what it does not have and its end says what
is left; references that it does not know of stay as they are.
-/

namespace Jib.QuickJS

open CommandProgram Program ResourceLedgers

/-! ## What commands move -/

/-- What has a reference count.  A C string stands for the string that keeps
its bytes. -/
inductive Resource
  | value (pointer : Address)
  | atom (atom : Atom)
  | cString (utf8 : Bytes)
  | context
  deriving DecidableEq

abbrev References := Resource → Nat

def single (resource : Resource) : References :=
  fun other => if other = resource then 1 else 0

/-- The reference that a value is. -/
def JSValue.references (value : JSValue) : References :=
  match value.pointer? with
  | some pointer => single (.value pointer)
  | none => 0

def valueReferences (values : List JSValue) : References :=
  (values.map JSValue.references).sum

/-- The references that functions have in `functionValueRef`. -/
def functionReferences (functions : List JibFunction) : References :=
  valueReferences (functions.map JibFunction.functionValueRef)

@[simp]
theorem valueReferences_nil : valueReferences [] = 0 :=
  rfl

@[simp]
theorem valueReferences_cons (value : JSValue) (rest : List JSValue) :
    valueReferences (value :: rest) = value.references + valueReferences rest :=
  rfl

@[simp]
theorem functionReferences_nil : functionReferences [] = 0 :=
  rfl

@[simp]
theorem functionReferences_cons (function : JibFunction) (rest : List JibFunction) :
    functionReferences (function :: rest) =
      function.functionValueRef.references + functionReferences rest :=
  rfl

/-- What the caller owns of an answer. -/
def given : (command : Command) → Answer command → References
  | .jsEval .., value => value.references
  | .jsCall .., value => value.references
  | .jsGetException, value => value.references
  | .jsDupValue _, value => value.references
  | .jsToCString _, some utf8 => single (.cString utf8)
  | .jsJSONStringify .., value => value.references
  | .jsNewAtom _, atom => single (.atom atom)
  | .jsNewCFunctionMagic .., value => value.references
  | .jsNewArray, value => value.references
  | .jsNewStringLen _, value => value.references
  | .jsNewBigUint64 _, value => value.references
  | .jsGetGlobalObject, value => value.references
  | _, _ => 0

/-- What a command takes from its caller.  `JS_SetProperty` takes the value
whether or not it succeeds; `JS_ArrayPush` and `JS_Call` take nothing. -/
def taken : Command → References
  | .jsFreeValue value => value.references
  | .jsFreeCString utf8 => single (.cString utf8)
  | .jsFreeAtom atom => single (.atom atom)
  | .jsSetProperty _ _ value => value.references
  | .jsFreeContext => single .context
  | _ => 0

/-- What moves from the code that runs into the fields of its `Jib`. -/
def kept : Command → References
  | .appendCustomFunction function => function.functionValueRef.references
  | _ => 0

/-- What answers say about references. -/
def Answers : (command : Command) → Answer command → Prop
  | .jsDupValue value, answer => answer = value
  | _, _ => True

/-- The references in the hands of the Swift code. -/
def transfer : Effect interface References :=
  fun command before answer after =>
    Answers command answer ∧
      after = before + given command answer - (taken command + kept command)

/-- Only functions with a body are kept, and the engine itself stays. -/
def Command.Ordinary : Command → Prop
  | .appendCustomFunction function => function.bodyPtr ≠ none
  | .jsFreeContext => False
  | .jsFreeRuntime => False
  | _ => True

/-- What a command takes is there. -/
def Ready (command : Command) (flight : References) : Prop :=
  command.Ordinary ∧ taken command + kept command ≤ flight

/-! ## Programs that balance -/

variable {α β : Type}

/-- Begun with `held` in hand, the program ends with what `post` says. -/
def Balances (held : References) (post : α → References → Prop) (program : Operation α) :
    Prop :=
  ∀ others, program.Satisfies transfer Ready
    (fun value after => ∃ left, post value left ∧ after = others + left) (others + held)

/-- What commands take and give, with what is known of their answers. -/
def ledger : Ledger interface Resource where
  takes command := taken command + kept command
  gives := given
  Answers := Answers
  Allowed := Command.Ordinary

variable {held extra : References} {post : α → References → Prop}

/-- Balancing is balancing in the ledger. -/
theorem balances_iff {program : Operation α} :
    Balances held post program ↔ ledger.Balances held post program :=
  Iff.rfl

theorem balances_done {value : α} (holds : post value held) :
    Balances held post (.done value) :=
  balances_iff.mpr (ResourceLedgers.balances_done holds)

theorem Balances.mono {weaker : α → References → Prop} {program : Operation α}
    (balances : Balances held post program)
    (implies : ∀ value left, post value left → weaker value left) :
    Balances held weaker program :=
  balances_iff.mpr ((balances_iff.mp balances).mono implies)

/-- A command takes its share and leaves the rest and what it gives. -/
theorem Balances.call {command : Command} {next : Answer command → Operation α}
    (ordinary : command.Ordinary) (rest : References)
    (split : held = rest + (taken command + kept command))
    (balances : ∀ answer, Answers command answer →
      Balances (rest + given command answer) post (next answer)) :
    Balances held post (.call command next) :=
  balances_iff.mpr (balances_call ordinary rest split balances)

/-- What a part of a program does not know of is still there for the rest. -/
theorem Balances.bind {mid : β → References → Prop} {program : Operation β}
    {continuation : β → Operation α} (balances : Balances held mid program)
    (continues : ∀ value left, mid value left →
      Balances (extra + left) post (continuation value)) :
    Balances (extra + held) post (program >>= continuation) :=
  balances_iff.mpr ((balances_iff.mp balances).bind continues)

theorem Balances.seq {mid : β → References → Prop} {program : Operation β}
    {continuation : β → Operation α} (balances : Balances held mid program)
    (continues : ∀ value left, mid value left → Balances left post (continuation value)) :
    Balances held post (program >>= continuation) :=
  balances_iff.mpr ((balances_iff.mp balances).seq continues)

theorem Balances.locked {body : Operation α} (balances : Balances held post body) :
    Balances held post (Program.locked body) :=
  balances_iff.mpr (balances_iff.mp balances).locked

/-- Every end has what the value it returns is made of. -/
abbrev Yielding (count : α → References) (value : α) (left : References) : Prop :=
  left = count value

theorem balances_mapEach {body : β → Operation JSValue} (elements : List β)
    (rounds : ∀ element, Balances 0 (Yielding JSValue.references) (body element)) :
    Balances 0 (Yielding valueReferences) (mapEach body elements) :=
  balances_iff.mpr (ResourceLedgers.balances_mapEach elements rounds)

/-- Nothing is left in hand. -/
abbrev Spent (_ : α) (left : References) : Prop :=
  left = 0

theorem balances_jsFreeValue (value : JSValue) :
    Balances value.references Spent (jsFreeValue value) := by
  refine Balances.call trivial 0 (by simp [taken, kept]) ?_
  intro _ _
  exact balances_done (add_zero 0)

theorem balances_forEach_jsFreeValue (values : List JSValue) :
    Balances (valueReferences values) Spent (forEach jsFreeValue values) :=
  balances_iff.mpr (balances_forEach balances_jsFreeValue values)

/-! ## The operations balance -/

/-- The reference of a value that may be there. -/
def optionReferences (value : Option JSValue) : References :=
  value.elim 0 JSValue.references

theorem references_of_isException {value : JSValue} (isException : value.isException = true) :
    value.references = 0 := by
  cases value <;> first | rfl | cases isException

theorem balances_exceptionHitch (exceptionValue : JSValue) :
    Balances 0 Spent (exceptionHitch exceptionValue) := by
  refine Balances.call trivial 0 rfl ?_
  intro utf8 _
  cases utf8 with
  | none => exact balances_done rfl
  | some utf8 =>
      refine Balances.call trivial 0 rfl ?_
      intro _ _
      exact balances_done rfl

theorem balances_recordException : Balances 0 Spent recordException := by
  refine Balances.call trivial 0 rfl ?_
  intro exceptionValue _
  change Balances _ _ (exceptionHitch exceptionValue >>= _)
  rw [add_comm]
  apply (balances_exceptionHitch exceptionValue).bind
  rintro text _ rfl
  refine Balances.call trivial exceptionValue.references rfl ?_
  intro _ _
  change Balances _ _ (jsFreeValue exceptionValue >>= _)
  apply (balances_jsFreeValue exceptionValue).seq
  rintro _ _ rfl
  exact balances_done rfl

/-- An exception owns nothing, so a recorded value need not be freed. -/
theorem balances_recordIf (value : JSValue) :
    Balances value.references
      (fun recorded left => left = value.references ∧ (recorded = none → left = 0))
      (recordIf value) := by
  unfold recordIf
  split
  · rename_i isException
    rw [references_of_isException isException]
    apply balances_recordException.mono
    rintro recorded _ rfl
    exact ⟨rfl, fun _ => rfl⟩
  · exact balances_done ⟨rfl, by simp⟩

theorem balances_hitchOfCString (value : JSValue) :
    Balances 0 Spent (hitchOfCString value) := by
  refine Balances.call trivial 0 rfl ?_
  intro utf8 _
  cases utf8 with
  | none => exact balances_done rfl
  | some utf8 =>
      refine Balances.call trivial 0 rfl ?_
      intro _ _
      exact balances_done rfl

theorem balances_jsValueToJson (value : JSValue) :
    Balances 0 Spent (jsValueToJson value) := by
  unfold jsValueToJson
  split
  · exact balances_done rfl
  · refine Balances.call trivial 0 rfl ?_
    intro json _
    change Balances _ _ (hitchOfCString json >>= _)
    rw [add_comm]
    apply (balances_hitchOfCString json).bind
    rintro hitch _ rfl
    rw [add_zero]
    apply (balances_jsFreeValue json).seq
    rintro _ _ rfl
    exact balances_done rfl

theorem balances_jsValueToHitch (value : JSValue) :
    Balances 0 Spent (jsValueToHitch value) := by
  unfold jsValueToHitch
  split
  · exact balances_done rfl
  · exact balances_hitchOfCString value

theorem balances_jsValueToDecodable {D : Type} (decode : Bytes → Option D)
    (value : JSValue) : Balances 0 Spent (jsValueToDecodable decode value) := by
  unfold jsValueToDecodable
  split
  · exact balances_done rfl
  · apply (balances_jsValueToJson value).seq
    rintro json _ rfl
    cases json <;> exact balances_done rfl

/-- A function that is looked up has no body and owns one reference. -/
theorem balances_jsValueToFunction (value : JSValue) :
    Balances 0
      (fun function left => (∀ found ∈ function, found.bodyPtr = none) ∧
        left = functionReferences function.toList)
      (jsValueToFunction value) := by
  unfold jsValueToFunction
  split
  · exact balances_done ⟨by simp, rfl⟩
  · refine Balances.call trivial 0 rfl ?_
    intro isFunction _
    cases isFunction with
    | false => exact balances_done ⟨by simp, rfl⟩
    | true =>
        refine Balances.call trivial 0 rfl ?_
        intro functionValueRef _
        exact balances_done ⟨by simp, by simp [given]⟩

theorem balances_jsValueToDouble (value : JSValue) :
    Balances 0 Spent (jsValueToDouble value) := by
  unfold jsValueToDouble
  split_ifs
  · exact balances_done rfl
  · exact Balances.call trivial 0 rfl fun _ _ => balances_done rfl
  · exact balances_done rfl

theorem balances_jsValueToInt (value : JSValue) :
    Balances 0 Spent (jsValueToInt value) := by
  unfold jsValueToInt
  split_ifs
  · exact balances_done rfl
  · exact Balances.call trivial 0 rfl fun _ _ => balances_done rfl
  · exact balances_done rfl

theorem balances_jsValueToBool (value : JSValue) :
    Balances 0 Spent (jsValueToBool value) := by
  unfold jsValueToBool
  split_ifs
  · exact balances_done rfl
  · exact Balances.call trivial 0 rfl fun _ _ => balances_done rfl
  · exact balances_done rfl

theorem references_jsNewInt64 (value : Int) : (jsNewInt64 value).references = 0 := by
  unfold jsNewInt64
  split <;> rfl

theorem references_jsNewFloat64 (value : BinaryNumbers.Binary64) :
    (jsNewFloat64 value).references = 0 := by
  unfold jsNewFloat64
  split
  · split <;> rfl
  · rfl

theorem balances_jsNewStringLen (bytes : Bytes) :
    Balances 0 (Yielding JSValue.references) (jsNewStringLen bytes) :=
  Balances.call trivial 0 rfl fun _ _ => balances_done (zero_add _)

theorem balances_createArrayJibValue (hitches : List Bytes) :
    Balances 0 (Yielding JSValue.references) (createArrayJibValue hitches) := by
  apply (balances_mapEach hitches balances_jsNewStringLen).seq
  rintro arguments _ rfl
  refine Balances.call trivial (valueReferences arguments) rfl ?_
  intro array _
  refine Balances.call trivial (valueReferences arguments + array.references) rfl ?_
  intro pushed _
  change Balances (_ + 0) _ (forEach jsFreeValue arguments >>= _)
  rw [add_zero, add_comm]
  apply (balances_forEach_jsFreeValue arguments).bind
  rintro _ _ rfl
  exact balances_done (add_zero _)

theorem balances_createJibValue (argument : JibUnknown) :
    Balances 0 (Yielding JSValue.references) argument.createJibValue := by
  cases argument with
  | jibFunction function =>
      exact Balances.call trivial 0 rfl fun _ _ => balances_done (zero_add _)
  | hitchArray hitches => exact balances_createArrayJibValue hitches
  | string bytes => exact balances_jsNewStringLen bytes
  | staticString bytes => exact balances_jsNewStringLen bytes
  | hitch bytes => exact balances_jsNewStringLen bytes
  | halfHitch slice => exact balances_jsNewStringLen slice.bytes
  | int value => exact balances_done (references_jsNewInt64 value).symm
  | uint value => exact Balances.call trivial 0 rfl fun _ _ => balances_done (zero_add _)
  | double value => exact balances_done (references_jsNewFloat64 value).symm
  | float value => exact balances_done (references_jsNewFloat64 value.widen).symm
  | bool value => exact balances_done rfl

theorem balances_convertArgument (argument : Option JibUnknown) :
    Balances 0 (Yielding JSValue.references) (convertArgument argument) := by
  cases argument with
  | none => exact balances_done rfl
  | some argument => exact balances_createJibValue argument

theorem balances_checkConverted (given converted : Nat) :
    Balances 0 Spent (checkConverted given converted) := by
  unfold checkConverted
  split
  · exact balances_done rfl
  · exact Balances.call trivial 0 rfl fun _ _ => balances_done rfl

/-- The arguments are freed, the result is passed on. -/
theorem balances_callConverted (function : JibFunction) (convertedArgs : List JSValue) :
    Balances (valueReferences convertedArgs) (Yielding optionReferences)
      (callConverted function convertedArgs) := by
  refine Balances.call trivial (valueReferences convertedArgs) rfl ?_
  intro result _
  change Balances _ _ (forEach jsFreeValue convertedArgs >>= _)
  rw [add_comm]
  apply (balances_forEach_jsFreeValue convertedArgs).bind
  rintro _ _ rfl
  rw [add_zero]
  apply (balances_recordIf result).seq
  rintro recorded left ⟨isLeft, unrecorded⟩
  cases recorded with
  | none => exact balances_done (unrecorded rfl)
  | some _ => exact balances_done isLeft

theorem balances_callJSValue (function : JibFunction)
    (arguments : List (Option JibUnknown)) :
    Balances 0 (Yielding optionReferences) (callJSValue function arguments) := by
  apply (balances_mapEach arguments balances_convertArgument).seq
  rintro convertedArgs _ rfl
  rw [← add_zero (valueReferences convertedArgs)]
  apply (balances_checkConverted _ _).bind
  rintro _ _ rfl
  rw [add_zero]
  exact balances_callConverted function convertedArgs

/-- A value that is converted and then freed leaves what the conversion
gives. -/
theorem balances_convertAndFree {post : Option α → References → Prop}
    {convert : JSValue → Operation (Option α)}
    (converts : ∀ value, Balances 0 post (convert value)) (value : JSValue) :
    Balances value.references post (do
      let converted ← convert value
      jsFreeValue value
      return converted) := by
  rw [← add_zero value.references]
  apply (converts value).bind
  intro converted left holds
  rw [add_comm]
  apply (balances_jsFreeValue value).bind
  rintro _ _ rfl
  exact balances_done (by rwa [add_zero])

theorem balances_typedCall {post : Option α → References → Prop}
    {convert : JSValue → Operation (Option α)}
    (converts : ∀ value, Balances 0 post (convert value)) (absent : post none 0)
    (function : JibFunction) (arguments : List (Option JibUnknown)) :
    Balances 0 post (typedCall convert function arguments) := by
  refine Balances.locked ((balances_callJSValue function arguments).seq ?_)
  rintro jsValue _ rfl
  cases jsValue with
  | none => exact balances_done absent
  | some jsValue => exact balances_convertAndFree converts jsValue

theorem balances_evalScript (script : HalfHitch) :
    Balances 0 (Yielding optionReferences) (evalScript script) := by
  unfold evalScript
  split
  · exact Balances.call trivial 0 rfl fun _ _ => balances_done (zero_add _)
  · exact balances_done rfl

theorem balances_eval (script : HalfHitch) : Balances 0 Spent (eval script) := by
  refine Balances.locked ((balances_evalScript _).seq ?_)
  rintro result _ rfl
  cases result with
  | none => exact balances_done rfl
  | some result =>
      apply (balances_recordIf result).seq
      rintro recorded _ ⟨rfl, _⟩
      apply (balances_jsFreeValue result).seq
      rintro _ _ rfl
      cases recorded <;> exact balances_done rfl

theorem balances_resolve (hitch : HalfHitch) :
    Balances 0 (Yielding optionReferences) (resolve hitch) := by
  apply (balances_evalScript _).seq
  rintro modifiedValue _ rfl
  cases modifiedValue with
  | none => exact balances_evalScript _
  | some modifiedValue =>
      simp only [optionReferences, Option.elim_some]
      split
      · rename_i isException
        rw [references_of_isException isException]
        exact balances_evalScript _
      · exact balances_done rfl

theorem balances_typedSubscript {post : Option α → References → Prop}
    {convert : JSValue → Operation (Option α)}
    (converts : ∀ value, Balances 0 post (convert value)) (absent : post none 0)
    (exec : HalfHitch) : Balances 0 post (typedSubscript convert exec) := by
  refine Balances.locked ((balances_resolve exec).seq ?_)
  rintro value _ rfl
  cases value with
  | none => exact balances_done absent
  | some value => exact balances_convertAndFree converts value

theorem balances_assignGlobal (global : JSValue) (atom : Atom) (value : JSValue) :
    Balances value.references Spent (assignGlobal global atom value) := by
  refine Balances.call trivial 0 (by simp [taken, kept]) ?_
  intro assigned _
  cases assigned with
  | true => exact balances_done rfl
  | false => exact balances_recordException

/-- Setting a global takes a reference to the value. -/
theorem balances_setGlobal (global : JSValue) (name : HalfHitch) (value : JSValue) :
    Balances value.references Spent (setGlobal global name value) := by
  refine Balances.locked (Balances.call trivial value.references rfl ?_)
  intro atom _
  change Balances _ _ (assignGlobal global atom value >>= _)
  rw [add_comm]
  apply (balances_assignGlobal global atom value).bind
  rintro result _ rfl
  refine Balances.call trivial 0 (by simp [given, taken, kept]) ?_
  intro _ _
  exact balances_done rfl

/-- Of the two references to a new function one is kept with it; the other is
left. -/
theorem balances_newFunction (name : HalfHitch) (body : JibFunctionBody) :
    Balances 0
      (fun made left => (∀ function ∈ made, function.bodyPtr ≠ none) ∧
        left = functionReferences made.toList)
      (newFunction name body) := by
  refine Balances.locked (Balances.call trivial 0 rfl ?_)
  intro bodyPtr _
  refine Balances.call trivial 0 rfl ?_
  intro functionValue _
  refine Balances.call trivial functionValue.references (by simp [given, taken, kept]) ?_
  intro functionValueRef isValue
  have same : functionValueRef = functionValue := isValue
  apply Balances.call (by simp [Command.Ordinary]) functionValue.references
    (by simp [given, taken, kept, same])
  intro _ _
  exact balances_done ⟨by simp, by simp [given, same]⟩

theorem balances_garbageCollect : Balances 0 Spent garbageCollect :=
  Balances.locked (Balances.call trivial 0 rfl fun _ _ => balances_done rfl)

/-- Creating a `Jib` sets `global` with the reference that it asks for, and
`print` with the one that is left of the new function. -/
theorem balances_initJib (printBody : JibFunctionBody) :
    Balances 0 Spent (initJib printBody) := by
  refine Balances.call trivial 0 rfl ?_
  intro global _
  change Balances (0 + global.references) _ (setGlobal global globalName global >>= _)
  apply (balances_setGlobal global globalName global).bind
  rintro _ _ rfl
  apply (balances_newFunction printName printBody).seq
  rintro printFn left ⟨_, isLeft⟩
  subst left
  cases printFn with
  | none => exact balances_done rfl
  | some printFn =>
      simp only [Option.toList_some, functionReferences_cons, functionReferences_nil,
        add_zero]
      apply (balances_setGlobal global printName printFn.functionValueRef).seq
      rintro _ _ rfl
      apply (balances_eval consoleScript).seq
      rintro _ _ rfl
      exact balances_done rfl

end Jib.QuickJS
