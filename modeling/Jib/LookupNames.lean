import Jib.GlobalScopes
import Jib.LookupEvaluations

/-!
# Lookups by name and by evaluation

The JavaScriptCore `resolve` reads a short text as the name of a property
before it evaluates it.  The engine evaluates identifiers in its global scope
and is any evaluation function on other texts.  For an identifier the two
readings give the same value exactly when no lexical binding holds another.
-/

open CommandProgram Program

namespace Jib.JSC

/-- An engine with a global scope.  Identifiers, in parentheses or not, are
evaluated in it. -/
structure ScopedEngine (State : Type) where
  scope : GlobalScope Bytes State JSValueRef
  parses : Bytes → Bool
  evaluate : Bytes → State → Except JSValueRef JSValueRef × State
  throws_of_not_parses : ∀ text state, parses text = false →
    ∃ exception, evaluate text state = (.error exception, state)
  string : Bytes → JSStringRef
  other : (command : Command) → State → Answer command
  isIdentifier : Bytes → Bool
  noNul_identifier : ∀ name, isIdentifier name = true → 0 ∉ name
  /-- A string is made of the text that an identifier is. -/
  string_identifier : ∀ name, isIdentifier name = true → (string name).text = name
  string_parenthesized : ∀ name, isIdentifier name = true →
    (string ([40] ++ name ++ [41])).text = [40] ++ name ++ [41]
  evaluate_identifier : ∀ name state, isIdentifier name = true →
    evaluate name state = scope.resolveBinding name state
  evaluate_parenthesized : ∀ name state, isIdentifier name = true →
    evaluate ([40] ++ name ++ [41]) state = scope.resolveBinding name state

namespace ScopedEngine

variable {State : Type} (engine : ScopedEngine State)

/-- `JSObjectGetProperty` on the global object reads the property of the name;
it gives no value when a getter throws. -/
def environment : Environment State where
  engine :=
    { parses := engine.parses
      evaluate := engine.evaluate
      throws_of_not_parses := engine.throws_of_not_parses
      isAccessor := engine.scope.runsGetter
      lookup := fun name state =>
        ((engine.scope.get name state).1.toOption, (engine.scope.get name state).2)
      lookup_state := fun _ _ noGetter =>
        GlobalScope.get_of_not_runsGetter noGetter }
  string := engine.string
  isUndefined value := value == engine.scope.undefined
  other := engine.other

variable {engine} {slice : HalfHitch}

theorem plainText_identifier (identifier : engine.isIdentifier slice.bytes = true) :
    engine.environment.plainText slice = slice.bytes := by
  change (engine.string (cString slice.bytes)).text = slice.bytes
  rw [cString_of_noNul (engine.noNul_identifier _ identifier),
    engine.string_identifier _ identifier]

theorem parenthesizedText_identifier
    (identifier : engine.isIdentifier slice.bytes = true) :
    engine.environment.parenthesizedText slice = [40] ++ slice.bytes ++ [41] := by
  have noNul : 0 ∉ [40] ++ slice.bytes ++ [41] := by
    simpa using engine.noNul_identifier _ identifier
  change (engine.string (cString ([40] ++ slice.bytes ++ [41]))).text = _
  rw [cString_of_noNul noNul, engine.string_parenthesized _ identifier]

/-- The value that the lookup of an identifier gives is a defined value of the
property. -/
theorem globalValue_identifier (identifier : engine.isIdentifier slice.bytes = true)
    {state : State} {value : JSValueRef}
    (found : engine.environment.globalValue slice state = some value) :
    (engine.scope.get slice.bytes state).1 = .ok value ∧
      value ≠ engine.scope.undefined := by
  rw [Environment.globalValue, plainText_identifier identifier] at found
  obtain ⟨read, isDefined⟩ := Option.filter_eq_some_iff.mp found
  refine ⟨?_, by simpa [environment] using isDefined⟩
  change (engine.scope.get slice.bytes state).1.toOption = some value at read
  cases result : (engine.scope.get slice.bytes state).1 with
  | ok other =>
      rw [result] at read
      exact congrArg Except.ok (Option.some.inj read)
  | error exception =>
      rw [result] at read
      cases read

theorem engine_evaluate (text : Bytes) (state : State) :
    engine.environment.engine.evaluate text state = engine.evaluate text state :=
  rfl

/-- What the evaluations give for an identifier that a lexical binding shadows
is that binding. -/
theorem run_resolveEvaluated_shadowed
    (identifier : engine.isIdentifier slice.bytes = true)
    (hasMemory : slice.raw.isSome = true) (jib : JibFields) {page : Page State}
    {binding : Option JSValueRef}
    (shadowed : engine.scope.lexical slice.bytes page.state = some binding) :
    ((resolveEvaluated jib slice).run engine.environment.evaluating page).1 =
      binding.or (some jib.undefined) := by
  obtain ⟨bound, unchanged⟩ := GlobalScope.resolveBinding_of_shadowed shadowed
  simp only [Environment.run_resolveEvaluated, Environment.definedValue,
    ScriptEngine.effect, plainText_identifier identifier,
    parenthesizedText_identifier identifier, engine_evaluate,
    engine.evaluate_parenthesized _ _ identifier,
    engine.evaluate_identifier _ _ identifier, unchanged, bound, hasMemory, if_true]
  cases result : (engine.scope.resolveBinding slice.bytes page.state).1 with
  | error exception => rfl
  | ok value =>
      rw [result] at bound
      obtain rfl : some value = binding := bound
      split <;> simp_all

/-- What they give for an identifier that nothing shadows is the value of the
property. -/
theorem run_resolveEvaluated_unshadowed
    (identifier : engine.isIdentifier slice.bytes = true)
    (jib : JibFields) {page : Page State} {value : JSValueRef}
    (unshadowed : engine.scope.lexical slice.bytes page.state = none)
    (found : engine.environment.globalValue slice page.state = some value) :
    ((resolveEvaluated jib slice).run engine.environment.evaluating page).1 =
      some value := by
  obtain ⟨read, isDefined⟩ := globalValue_identifier identifier found
  have isProperty := GlobalScope.resolveBinding_of_unshadowed unshadowed read isDefined
  have accepted : engine.environment.definedValue ([40] ++ slice.bytes ++ [41])
      page.state = some value := by
    rw [Environment.definedValue, engine_evaluate,
      engine.evaluate_parenthesized _ _ identifier, isProperty, read]
    exact if_neg (by simpa [environment] using isDefined)
  rw [Environment.run_resolveEvaluated, parenthesizedText_identifier identifier, accepted]

/-- When the lookup of an identifier gives a value, `resolve` returns it, and
evaluating the text in the same state would have given the same value exactly
when no lexical binding of the name holds anything else. -/
theorem resolve_agrees_iff {jib : JibFields}
    (undefined : jib.undefined = engine.scope.undefined)
    (identifier : engine.isIdentifier slice.bytes = true) {page : Page State}
    {value : JSValueRef}
    (found : ((resolveGlobal jib slice).run engine.environment.evaluating page).1 =
      some value) :
    ((resolve jib slice).run engine.environment.evaluating page).1 = some value ∧
    (((resolveEvaluated jib slice).run engine.environment.evaluating page).1 =
        some value ↔
      ∀ binding, engine.scope.lexical slice.bytes page.state = some binding →
        binding = some value) := by
  rw [Environment.run_resolveGlobal] at found
  split at found
  · rename_i looksUp
    have hasMemory : slice.raw.isSome = true := by
      simp only [Environment.looksUp, Bool.and_eq_true] at looksUp
      exact looksUp.2
    obtain ⟨_, isDefined⟩ := globalValue_identifier identifier found
    constructor
    · simp only [resolve, setException, call_bind, done_bind, run_call]
      change (Program.run engine.environment.evaluating
        (resolveGlobal jib slice >>= _) page).1 = _
      rw [run_bind, Environment.run_resolveGlobal, if_pos looksUp, found]
      rfl
    · cases lexical : engine.scope.lexical slice.bytes page.state with
      | none =>
          simp [run_resolveEvaluated_unshadowed identifier jib lexical found]
      | some binding =>
          rw [run_resolveEvaluated_shadowed identifier hasMemory jib lexical]
          cases binding with
          | none => simpa [undefined] using Ne.symm isDefined
          | some bound => simp
  · cases found

/-! ## Texts that name one thing and evaluate to another -/

/-- A page whose global object inherits properties named `x` and `1`, both of
value 7.  `binding` is the lexical binding of `x`; the literal `1` is 9. -/
def oddPage (binding : Option JSValueRef) : ScopedEngine Unit where
  scope :=
    { lexical := fun name _ => if name = [120] then binding.map some else none
      objects := fun _ =>
        [fun _ => none,
          fun name => if name = [120] ∨ name = [49] then some (.data 7) else none]
      callGetter := fun getter _ => (.ok getter, ())
      undefined := 0
      referenceError := fun _ _ => 1 }
  parses text := text ∈ [[120], [40, 120, 41], [49], [40, 49, 41]]
  evaluate text _ :=
    (if text = [120] ∨ text = [40, 120, 41] then .ok (binding.getD 7)
      else if text = [49] ∨ text = [40, 49, 41] then .ok 9
      else .error 1, ())
  throws_of_not_parses text _ unparsed := ⟨1, by simp_all⟩
  string text := ⟨0, text⟩
  other command _ := emptyAnswer command
  isIdentifier name := name = [120]
  noNul_identifier name isX := by simp_all
  string_identifier _ _ := rfl
  string_parenthesized _ _ := rfl
  evaluate_identifier name _ isX := by
    obtain rfl : name = [120] := by simpa using isX
    cases binding <;> rfl
  evaluate_parenthesized name _ isX := by
    obtain rfl : name = [120] := by simpa using isX
    cases binding <;> rfl

/-- The name of the inherited property, evaluated in a page without a binding. -/
theorem resolve_agrees_inherited :
    ((resolve someJib (.ofBytes [120])).run
        (oddPage none).environment.evaluating ⟨(), []⟩).1 = some 7 ∧
    (((resolveEvaluated someJib (.ofBytes [120])).run
        (oddPage none).environment.evaluating ⟨(), []⟩).1 = some 7 ↔
      ∀ binding, (oddPage none).scope.lexical [120] () = some binding →
        binding = some 7) :=
  resolve_agrees_iff rfl rfl rfl

/-- A property that a `let` shadows, and one that is named like a literal. -/
theorem resolve_disagrees :
    (((resolve someJib (.ofBytes [120])).run
          (oddPage (some 8)).environment.evaluating ⟨(), []⟩).1 = some 7 ∧
      ((resolveEvaluated someJib (.ofBytes [120])).run
          (oddPage (some 8)).environment.evaluating ⟨(), []⟩).1 = some 8) ∧
    (((resolve someJib (.ofBytes [49])).run
          (oddPage none).environment.evaluating ⟨(), []⟩).1 = some 7 ∧
      ((resolveEvaluated someJib (.ofBytes [49])).run
          (oddPage none).environment.evaluating ⟨(), []⟩).1 = some 9) :=
  ⟨⟨rfl, rfl⟩, rfl, rfl⟩

end ScopedEngine

end Jib.JSC
