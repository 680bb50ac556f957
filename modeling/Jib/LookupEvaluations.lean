import Jib.JSCPublicOperations
import Jib.QuickJSPublicOperations
import Jib.ScriptEngines

/-!
# How often a lookup runs its script

`resolve` tries a text in several ways until one of them gives a value it
accepts.  The engine is an evaluation function; the other engine calls of an
operation answer without changing the JS state.  Each backend runs at most one
attempt exactly when the attempts that are not accepted have not run.
-/

open CommandProgram Program

namespace Jib.QuickJS

/-- The values an evaluation can have. -/
abbrev Evaluated := { value : JSValue // value.isException = false }

variable {State : Type}

/-- The answer of `JS_Eval`. -/
def evalAnswer : Except Evaluated Evaluated → JSValue
  | .ok value => value.1
  | .error _ => .exception

/-- The engine as the environment of operations.  `other` answers everything
that evaluates no script. -/
def evaluating (engine : ScriptEngine State Evaluated)
    (other : (command : Command) → State → Answer command) :
    Handler interface (Page State)
  | .jsEval input inputLength, page =>
      (evalAnswer (engine.run (input.take inputLength) page).1,
        (engine.run (input.take inputLength) page).2)
  | command, page => (other command page.state, page)

/-- The two ways in which `resolve` tries a text. -/
def resolveAttempts (slice : HalfHitch) : List Attempt :=
  [.script (Hitch.parenthesizedText slice), .script slice.bytes]

/-- The attempts that `resolve` makes: the text itself is tried when the text
in parentheses throws and there is memory behind the text. -/
def attemptsMade (engine : ScriptEngine State Evaluated) (slice : HalfHitch)
    (state : State) : List Attempt :=
  if engine.throws (Hitch.parenthesizedText slice) state && slice.raw.isSome then
    resolveAttempts slice
  else [.script (Hitch.parenthesizedText slice)]

/-- The text in parentheses runs and throws, and the text itself parses too. -/
def RunsTwice (engine : ScriptEngine State Evaluated) (slice : HalfHitch)
    (state : State) : Prop :=
  engine.parses (Hitch.parenthesizedText slice) = true ∧
    engine.throws (Hitch.parenthesizedText slice) state = true ∧
      slice.raw.isSome = true ∧ engine.parses slice.bytes = true

variable {engine : ScriptEngine State Evaluated}
  {other : (command : Command) → State → Answer command}

theorem run_evalScript_parenthesized (slice : HalfHitch) (page : Page State) :
    (evalScript (Hitch.parenthesized slice).nullTerminated.2).run
        (evaluating engine other) page =
      (some (evalAnswer (engine.run (Hitch.parenthesizedText slice) page).1),
        (engine.run (Hitch.parenthesizedText slice) page).2) := by
  simp [Hitch.parenthesized, evalScript, evaluating, HalfHitch.ofBytes]

theorem run_evalScript (slice : HalfHitch) (page : Page State) :
    (evalScript slice.nullTerminated).run (evaluating engine other) page =
      if slice.raw.isSome then
        (some (evalAnswer (engine.run slice.bytes page).1),
          (engine.run slice.bytes page).2)
      else (none, page) := by
  have sameText := slice.bytes_nullTerminated
  have sameMemory := slice.isSome_raw_nullTerminated
  cases terminated : slice.nullTerminated.raw with
  | none =>
      rw [terminated] at sameMemory
      simp [evalScript, terminated, ← sameMemory]
  | some memory =>
      rw [terminated] at sameMemory
      have text : memory.take slice.nullTerminated.count = slice.bytes := by
        simpa [HalfHitch.bytes, terminated] using sameText
      simp [evalScript, terminated, ← sameMemory, evaluating, text]

theorem isException_evalAnswer (text : Bytes) (page : Page State) :
    (evalAnswer (engine.run text page).1).isException = engine.throws text page.state := by
  simp only [ScriptEngine.run, ScriptEngine.throws]
  cases (engine.evaluate text page.state).1 with
  | ok value => exact value.2
  | error exception => rfl

/-- `resolve` makes its attempts and nothing else. -/
theorem run_resolve (slice : HalfHitch) (page : Page State) :
    ((resolve slice).run (evaluating engine other) page).2 =
      (attemptsMade engine slice page.state).foldl engine.perform page := by
  simp only [resolve, run_bind, run_evalScript_parenthesized, isException_evalAnswer,
    attemptsMade]
  cases engine.throws (Hitch.parenthesizedText slice) page.state with
  | false => simp [ScriptEngine.perform]
  | true =>
      cases memory : slice.raw.isSome <;>
        simp [run_evalScript, memory, resolveAttempts, ScriptEngine.perform]

theorem effective_attemptsMade (slice : HalfHitch) (state : State) :
    (engine.effective (attemptsMade engine slice state) state).length ≤ 1 ↔
      ¬ RunsTwice engine slice state := by
  unfold attemptsMade RunsTwice
  cases parses : engine.parses (Hitch.parenthesizedText slice) with
  | false =>
      rw [ScriptEngine.throws_of_unparsed parses]
      cases slice.raw.isSome <;> cases plain : engine.parses slice.bytes <;>
        simp [resolveAttempts, parses, plain]
  | true =>
      cases engine.throws (Hitch.parenthesizedText slice) state <;>
        cases slice.raw.isSome <;> cases plain : engine.parses slice.bytes <;>
        simp [resolveAttempts, parses, plain]

variable (engine other) in
theorem resolve_runsOnce_iff (slice : HalfHitch) (page : Page State) :
    engine.RunsOnce (resolveAttempts slice) page
        ((resolve slice).run (evaluating engine other) page).2 ↔
      ¬ RunsTwice engine slice page.state := by
  have among : attemptsMade engine slice page.state ⊆ resolveAttempts slice := by
    unfold attemptsMade
    split
    · exact List.Subset.refl _
    · simp [resolveAttempts]
  rw [run_resolve, ScriptEngine.runsOnce_performAll_iff among, effective_attemptsMade]

/-- Readers run no script. -/
theorem run_reading {α : Type} {program : Operation α} (reading : Reading program)
    (page : Page State) : (program.run (evaluating engine other) page).2 = page := by
  have keeps : ∀ command (met : Page State), command.isReader = true → met = page →
      (evaluating engine other command met).2 = page := by
    intro command met isReader same
    cases command <;> first | exact same | cases isReader
  exact reading.run_keeps keeps rfl

/-- A typed subscript runs what `resolve` runs. -/
theorem run_subscript {D : Type} (reader : Reader D) (exec : HalfHitch)
    (page : Page State) :
    ((reader.subscript exec).run (evaluating engine other) page).2 =
      ((resolve exec).run (evaluating engine other) page).2 := by
  obtain ⟨_, convert, _, conversion⟩ := reader.conversion
  rw [conversion.subscript]
  simp only [typedSubscript, run_bind, run_locked, run_done]
  cases (resolve exec).run (evaluating engine other) page with
  | mk value resolved =>
      cases value with
      | none => rfl
      | some value => simp [run_reading (conversion.reading value), evaluating]

end Jib.QuickJS

namespace Jib.JSC

/-- What an operation meets: an engine, the strings it makes of bytes, the
values that are `undefined`, and answers to everything that runs nothing. -/
structure Environment (State : Type) where
  engine : ScriptEngine State JSValueRef
  string : Bytes → JSStringRef
  isUndefined : JSValueRef → Bool
  other : (command : Command) → State → Answer command

/-- The answer of `JSEvaluateScript`. -/
def evaluationAnswer :
    Except JSValueRef JSValueRef → Option JSValueRef × Option JSValueRef
  | .ok value => (some value, none)
  | .error exception => (none, some exception)

namespace Environment

variable {State : Type}

/-- The environment of the operations of an unreleased `Jib`. -/
def evaluating (environment : Environment State) : Handler interface (Page State)
  | .readReleased, page => (false, page)
  | .jsStringCreateWithUTF8CString text, page => (some (environment.string text), page)
  | .jsEvaluateScript _ script, page =>
      (evaluationAnswer (environment.engine.run script.text page).1,
        (environment.engine.run script.text page).2)
  | .jsObjectGetProperty _ _ name, page => environment.engine.read name.text page
  | .jsValueIsUndefined _ value, page => (environment.isUndefined value, page)
  | command, page => (environment.other command page.state, page)

variable (environment : Environment State) (slice : HalfHitch)

/-- The text in parentheses, as the engine reads it. -/
def parenthesizedText : Bytes :=
  (environment.string (cString (Hitch.parenthesizedText slice))).text

/-- The text itself, as the engine reads it. -/
def plainText : Bytes :=
  (environment.string (cString slice.bytes)).text

/-- The three ways in which `resolve` tries a text. -/
def resolveAttempts : List Attempt :=
  [.accessor (environment.plainText slice),
    .script (environment.parenthesizedText slice),
    .script (environment.plainText slice)]

/-- `resolve` looks the text up as a property. -/
def looksUp : Bool :=
  decide (slice.count < 128) && slice.raw.isSome

/-- The value that the lookup gives, unless it is `undefined`. -/
def globalValue (state : State) : Option JSValueRef :=
  (environment.engine.lookup (environment.plainText slice) state).1.filter
    fun value => !environment.isUndefined value

/-- The lookup gives a value that is not `undefined`. -/
def finds (state : State) : Bool :=
  (environment.globalValue slice state).isSome

/-- The value of a script, unless it throws or is `undefined`. -/
def definedValue (text : Bytes) (state : State) : Option JSValueRef :=
  match (environment.engine.evaluate text state).1 with
  | .ok value => if environment.isUndefined value then none else some value
  | .error _ => none

/-- The script gives a value that is not `undefined`. -/
def accepts (text : Bytes) (state : State) : Bool :=
  (environment.definedValue text state).isSome

/-- The evaluations that `resolve` makes when the lookup gives nothing. -/
def evaluationsMade (state : State) : List Attempt :=
  if environment.accepts (environment.parenthesizedText slice) state then
    [.script (environment.parenthesizedText slice)]
  else if slice.raw.isSome then
    [.script (environment.parenthesizedText slice),
      .script (environment.plainText slice)]
  else [.script (environment.parenthesizedText slice)]

/-- The attempts that `resolve` makes. -/
def attemptsMade (state : State) : List Attempt :=
  if looksUp slice then
    .accessor (environment.plainText slice) ::
      if environment.finds slice state then []
      else environment.evaluationsMade slice
        (environment.engine.lookup (environment.plainText slice) state).2
  else environment.evaluationsMade slice state

/-- The lookup runs a getter. -/
def readsAccessor (state : State) : Bool :=
  looksUp slice && environment.engine.isAccessor (environment.plainText slice) state

/-- The text itself parses and there is memory behind it. -/
def plainParses : Bool :=
  slice.raw.isSome && environment.engine.parses (environment.plainText slice)

/-- The lookup gives nothing, and then either it has run a getter and one of
the scripts parses, or the text in parentheses runs without a value that is
accepted and the text itself parses too. -/
def RunsTwice (state : State) : Prop :=
  (looksUp slice && environment.finds slice state) = false ∧
    ((environment.readsAccessor slice state = true ∧
        (environment.engine.parses (environment.parenthesizedText slice) = true ∨
          environment.plainParses slice = true)) ∨
      (environment.engine.parses (environment.parenthesizedText slice) = true ∧
        environment.accepts (environment.parenthesizedText slice) state = false ∧
          environment.plainParses slice = true))

variable {environment}

theorem run_jsString {α : Type} (callback : JSStringRef → Operation (Option α))
    (page : Page State) :
    (jsString slice callback).run environment.evaluating page =
      if slice.raw.isSome then
        (callback (environment.string (cString slice.bytes))).run
          environment.evaluating page
      else (none, page) := by
  unfold jsString
  cases hasMemory : slice.raw with
  | none => simp
  | some memory =>
      simp only [Option.isSome_some, if_true]
      split
      · rename_i terminated
        rw [← HalfHitch.cString_raw hasMemory terminated]
        simp [withJSString, evaluating]
      · simp [hitchJSString, withJSString, Hitch.ofBytes, Hitch.following,
          Hitch.halfhitch, HalfHitch.following, evaluating]

theorem run_parenthesized {α : Type} (callback : JSStringRef → Operation (Option α))
    (page : Page State) :
    (hitchJSString (Hitch.parenthesized slice) callback).run
        environment.evaluating page =
      (callback (environment.string (cString (Hitch.parenthesizedText slice)))).run
        environment.evaluating page := by
  simp [Hitch.parenthesized, hitchJSString, withJSString, Hitch.ofBytes,
    Hitch.following, Hitch.halfhitch, HalfHitch.following, evaluating]

/-- Readers run no script. -/
theorem run_reading {α : Type} {program : Operation α} (reading : Reading program)
    (page : Page State) : (program.run environment.evaluating page).2 = page := by
  have keeps : ∀ command (met : Page State), command.isReader = true → met = page →
      (environment.evaluating command met).2 = page := by
    intro command met isReader same
    cases command <;> first | exact same | cases isReader
  exact reading.run_keeps keeps rfl

variable (environment) in
/-- What a property that is read gives, unless it is `undefined`. -/
theorem run_definedProperty (jib : JibFields) (name : JSStringRef) (page : Page State) :
    (definedProperty jib name).run environment.evaluating page =
      ((environment.engine.lookup name.text page.state).1.filter
        (fun value => !environment.isUndefined value),
        (environment.engine.read name.text page).2) := by
  simp only [definedProperty, jsObjectGetProperty, call_bind, done_bind, run_call]
  simp only [evaluating, ScriptEngine.read]
  cases (environment.engine.lookup name.text page.state).1 with
  | none => simp
  | some value =>
      cases undefined : environment.isUndefined value <;>
        simp [undefined, evaluating, Option.filter]

variable (environment) in
theorem run_acceptDefined (jib : JibFields)
    (evaluated : Except JSValueRef JSValueRef) (page : Page State) :
    (acceptDefined jib (evaluationAnswer evaluated)).run environment.evaluating page =
      (match evaluated with
        | .ok value => if environment.isUndefined value then none else some value
        | .error _ => none, page) := by
  cases evaluated with
  | error exception => simp [evaluationAnswer, acceptDefined]
  | ok value =>
      cases undefined : environment.isUndefined value <;>
        simp [evaluationAnswer, acceptDefined, undefined, evaluating]

variable (environment) in
/-- An exception is recorded and gives no value. -/
theorem run_acceptOrRecord (jib : JibFields)
    (evaluated : Except JSValueRef JSValueRef) (page : Page State) :
    (acceptOrRecord jib (evaluationAnswer evaluated)).run environment.evaluating page =
      (evaluated.toOption, page) := by
  cases evaluated with
  | error exception =>
      refine Prod.ext ?_ (run_reading (reading_record jib.context exception) page)
      simp [evaluationAnswer, acceptOrRecord, record, Except.toOption]
  | ok value => rfl

/-- The lookup is one attempt. -/
theorem run_resolveGlobal (jib : JibFields) (page : Page State) :
    (resolveGlobal jib slice).run environment.evaluating page =
      if looksUp slice then
        (environment.globalValue slice page.state,
          environment.engine.perform page (.accessor (environment.plainText slice)))
      else (none, page) := by
  unfold resolveGlobal looksUp
  by_cases short : slice.count < 128
  · cases hasMemory : slice.raw.isSome with
    | false => simp [short, createJSString, run_jsString, hasMemory]
    | true =>
        have read := run_definedProperty environment jib
          (environment.string (cString slice.bytes)) page
        simp [short, createJSString, run_jsString, hasMemory, read, globalValue,
          plainText, ScriptEngine.perform, evaluating]
  · simp [short]

/-- The text in parentheses is one attempt. -/
theorem run_resolveParenthesized (jib : JibFields) (page : Page State) :
    (resolveParenthesized jib slice).run environment.evaluating page =
      (environment.definedValue (environment.parenthesizedText slice) page.state,
        environment.engine.perform page
          (.script (environment.parenthesizedText slice))) := by
  have accepted := run_acceptDefined environment jib
    (environment.engine.run (environment.parenthesizedText slice) page).1
    (environment.engine.run (environment.parenthesizedText slice) page).2
  simp only [resolveParenthesized, run_parenthesized, jsEvaluateScript, call_bind,
    done_bind, run_call, run_bind, jsStringRelease, pure_eq_done, run_done]
  exact accepted

/-- The text itself is one attempt. -/
theorem run_resolveUnmodified (jib : JibFields) (page : Page State) :
    (resolveUnmodified jib slice).run environment.evaluating page =
      if slice.raw.isSome then
        ((environment.engine.evaluate (environment.plainText slice)
            page.state).1.toOption,
          environment.engine.perform page (.script (environment.plainText slice)))
      else (none, page) := by
  have recorded := run_acceptOrRecord environment jib
    (environment.engine.run (environment.plainText slice) page).1
    (environment.engine.run (environment.plainText slice) page).2
  simp only [resolveUnmodified, run_jsString]
  split
  · simp only [jsEvaluateScript, call_bind, done_bind, run_call, run_bind,
      jsStringRelease, pure_eq_done, run_done]
    exact recorded
  · rfl

/-- What the evaluations give and leave. -/
theorem run_resolveEvaluated (jib : JibFields) (page : Page State) :
    (resolveEvaluated jib slice).run environment.evaluating page =
      (match environment.definedValue (environment.parenthesizedText slice)
          page.state with
        | some value => some value
        | none =>
            if slice.raw.isSome then
              (environment.engine.evaluate (environment.plainText slice)
                (environment.engine.effect page.state
                  (.script (environment.parenthesizedText slice)))).1.toOption.or
                (some jib.undefined)
            else some jib.undefined,
        (environment.evaluationsMade slice page.state).foldl
          environment.engine.perform page) := by
  rw [resolveEvaluated, run_bind, run_resolveParenthesized, evaluationsMade, accepts]
  cases environment.definedValue (environment.parenthesizedText slice) page.state with
  | some value => rfl
  | none =>
      rw [run_bind, run_resolveUnmodified]
      cases slice.raw.isSome with
      | false => rfl
      | true =>
          simp only [ScriptEngine.perform_eq, if_true, Option.isSome_none,
            Bool.false_eq_true, if_false, List.foldl_cons, List.foldl_nil]
          cases (environment.engine.evaluate (environment.plainText slice) _).1 <;> rfl

/-- `resolve` makes its attempts and nothing else. -/
theorem run_resolve (jib : JibFields) (page : Page State) :
    ((resolve jib slice).run environment.evaluating page).2 =
      (environment.attemptsMade slice page.state).foldl
        environment.engine.perform page := by
  simp only [resolve, setException, call_bind, done_bind, run_call]
  change (Program.run environment.evaluating (resolveGlobal jib slice >>= _) page).2 = _
  rw [run_bind, run_resolveGlobal, attemptsMade, finds]
  cases looksUp slice with
  | false => simp [run_resolveEvaluated]
  | true =>
      cases environment.globalValue slice page.state with
      | some value => rfl
      | none =>
          simp only [if_true, run_resolveEvaluated]
          rfl

theorem not_accepts_of_unparsed {text : Bytes} {state : State}
    (unparsed : environment.engine.parses text = false) :
    environment.accepts text state = false := by
  obtain ⟨exception, evaluated⟩ :=
    environment.engine.throws_of_not_parses text state unparsed
  simp [accepts, definedValue, evaluated]

variable (environment) in
theorem effective_evaluationsMade (state : State) :
    environment.engine.effective (environment.evaluationsMade slice state) state =
      (if environment.engine.parses (environment.parenthesizedText slice) then
        [.script (environment.parenthesizedText slice)] else []) ++
      if !environment.accepts (environment.parenthesizedText slice) state &&
          environment.plainParses slice then
        [.script (environment.plainText slice)] else [] := by
  unfold evaluationsMade plainParses
  cases environment.accepts (environment.parenthesizedText slice) state <;>
    cases slice.raw.isSome <;>
    simp

theorem effective_attemptsMade (state : State) :
    (environment.engine.effective (environment.attemptsMade slice state)
        state).length ≤ 1 ↔ ¬ environment.RunsTwice slice state := by
  have evaluations := effective_evaluationsMade environment slice
  unfold attemptsMade RunsTwice readsAccessor
  cases looksUp : looksUp slice with
  | false =>
      simp only [Bool.false_eq_true, if_false, evaluations]
      cases environment.engine.parses (environment.parenthesizedText slice) <;>
        cases environment.accepts (environment.parenthesizedText slice) state <;>
        cases environment.plainParses slice <;> simp
  | true =>
      cases finds : environment.finds slice state with
      | true =>
          cases accessor : environment.engine.isAccessor
              (environment.plainText slice) state <;>
            simp [accessor]
      | false =>
          simp only [if_true, Bool.false_eq_true, if_false,
            ScriptEngine.effective_accessor, evaluations]
          cases accessor : environment.engine.isAccessor
              (environment.plainText slice) state with
          | false =>
              rw [environment.engine.lookup_state _ state accessor]
              cases environment.engine.parses (environment.parenthesizedText slice) <;>
                cases environment.accepts (environment.parenthesizedText slice) state <;>
                cases environment.plainParses slice <;> simp
          | true =>
              cases parses : environment.engine.parses
                  (environment.parenthesizedText slice) with
              | true => simp
              | false =>
                  rw [not_accepts_of_unparsed parses]
                  cases environment.plainParses slice <;> simp

variable (environment) in
theorem resolve_runsOnce_iff (jib : JibFields) (page : Page State) :
    environment.engine.RunsOnce (environment.resolveAttempts slice) page
        ((resolve jib slice).run environment.evaluating page).2 ↔
      ¬ environment.RunsTwice slice page.state := by
  have among : environment.attemptsMade slice page.state ⊆
      environment.resolveAttempts slice := by
    unfold attemptsMade evaluationsMade resolveAttempts
    split_ifs <;> simp
  rw [run_resolve, ScriptEngine.runsOnce_performAll_iff among, effective_attemptsMade]

/-- A typed subscript runs what `resolve` runs. -/
theorem run_subscript {D : Type} (jib : JibFields) (reader : Reader D)
    (page : Page State) :
    ((reader.subscript jib slice).run environment.evaluating page).2 =
      ((resolve jib slice).run environment.evaluating page).2 := by
  obtain ⟨_, absent, convert, _, conversion⟩ := reader.conversion jib
  rw [conversion.subscript]
  rw [run_bind, run_done]
  change ((locked (resolve jib slice >>= convert)).run environment.evaluating page).2 = _
  rw [run_locked, run_bind]
  exact run_reading (conversion.reading _) _

end Environment

end Jib.JSC

namespace Jib

/-- In both backends a lookup, with or without a conversion of its value, runs
at most one of its attempts exactly when the text is not of the kind that runs
twice. -/
theorem lookup_runsOnce_iff {State D : Type} (exec : HalfHitch) (page : Page State)
    (engine : ScriptEngine State QuickJS.Evaluated)
    (other : (command : QuickJS.Command) → State → QuickJS.Answer command)
    (reader : QuickJS.Reader D) (environment : JSC.Environment State)
    (jib : JSC.JibFields) (jscReader : JSC.Reader D) :
    ((engine.RunsOnce (QuickJS.resolveAttempts exec) page
          ((QuickJS.resolve exec).run (QuickJS.evaluating engine other) page).2 ↔
        ¬ QuickJS.RunsTwice engine exec page.state) ∧
      (engine.RunsOnce (QuickJS.resolveAttempts exec) page
          ((reader.subscript exec).run (QuickJS.evaluating engine other) page).2 ↔
        ¬ QuickJS.RunsTwice engine exec page.state)) ∧
    (environment.engine.RunsOnce (environment.resolveAttempts exec) page
          ((JSC.resolve jib exec).run environment.evaluating page).2 ↔
        ¬ environment.RunsTwice exec page.state) ∧
      (environment.engine.RunsOnce (environment.resolveAttempts exec) page
          ((jscReader.subscript jib exec).run environment.evaluating page).2 ↔
        ¬ environment.RunsTwice exec page.state) := by
  rw [QuickJS.run_subscript, JSC.Environment.run_subscript]
  have quickJS := QuickJS.resolve_runsOnce_iff engine other exec page
  have javaScriptCore := JSC.Environment.resolve_runsOnce_iff environment exec jib page
  exact ⟨⟨quickJS, quickJS⟩, javaScriptCore, javaScriptCore⟩

/-! ## A script that runs twice -/

/-- `"hits++, missing"`: counts and then throws. -/
def countThenThrow : Bytes := "hits++, missing".toUTF8.toList

/-- A page with a counter that only this script changes, in parentheses or
not.  No name is a property of the global object. -/
def countingEngine {Value : Type} (thrown : Value) : ScriptEngine Nat Value where
  parses text := text = countThenThrow ∨ text = [40] ++ countThenThrow ++ [41]
  evaluate text hits :=
    if text = countThenThrow ∨ text = [40] ++ countThenThrow ++ [41] then
      (.error thrown, hits + 1)
    else (.error thrown, hits)
  throws_of_not_parses text hits unparsed := ⟨thrown, if_neg (by simpa using unparsed)⟩
  isAccessor _ _ := false
  lookup _ hits := (none, hits)
  lookup_state _ _ _ := rfl

/-- The counter in the JavaScriptCore backend. -/
def countingEnvironment : JSC.Environment Nat where
  engine := countingEngine 1
  string text := ⟨0, text⟩
  isUndefined value := value == 0
  other command _ := JSC.emptyAnswer command

/-- One lookup of the script counts twice in both backends. -/
theorem lookup_counts_twice :
    (((QuickJS.resolve (.ofBytes countThenThrow)).run
        (QuickJS.evaluating (countingEngine ⟨.null, rfl⟩) fun command _ =>
          QuickJS.constantAnswer .undefined command) ⟨0, []⟩).2.state = 2 ∧
      ¬ (countingEngine (⟨.null, rfl⟩ : QuickJS.Evaluated)).RunsOnce
        (QuickJS.resolveAttempts (.ofBytes countThenThrow)) ⟨0, []⟩
        ((QuickJS.resolve (.ofBytes countThenThrow)).run
          (QuickJS.evaluating (countingEngine ⟨.null, rfl⟩) fun command _ =>
            QuickJS.constantAnswer .undefined command) ⟨0, []⟩).2) ∧
    ((JSC.resolve JSC.someJib (.ofBytes countThenThrow)).run
        countingEnvironment.evaluating ⟨0, []⟩).2.state = 2 ∧
      ¬ countingEnvironment.engine.RunsOnce
        (countingEnvironment.resolveAttempts (.ofBytes countThenThrow)) ⟨0, []⟩
        ((JSC.resolve JSC.someJib (.ofBytes countThenThrow)).run
          countingEnvironment.evaluating ⟨0, []⟩).2 := by
  have noNul : cString countThenThrow = countThenThrow := by decide +kernel
  have noNulParenthesized : cString ([40] ++ countThenThrow ++ [41]) =
      [40] ++ countThenThrow ++ [41] := by decide +kernel
  have looksUp : JSC.Environment.looksUp (.ofBytes countThenThrow) = true := by
    decide +kernel
  rw [QuickJS.resolve_runsOnce_iff, QuickJS.run_resolve,
    JSC.Environment.resolve_runsOnce_iff, JSC.Environment.run_resolve]
  refine ⟨⟨?_, ?_⟩, ?_⟩
  · simp [QuickJS.attemptsMade, ScriptEngine.throws, countingEngine,
      Hitch.parenthesizedText, QuickJS.resolveAttempts, ScriptEngine.perform,
      ScriptEngine.run]
  · simp [QuickJS.RunsTwice, ScriptEngine.throws, countingEngine,
      Hitch.parenthesizedText]
  · have parenthesized : countingEnvironment.parenthesizedText
        (.ofBytes countThenThrow) = [40] ++ countThenThrow ++ [41] := by
      simpa [JSC.Environment.parenthesizedText, countingEnvironment,
        Hitch.parenthesizedText] using noNulParenthesized
    have plain : countingEnvironment.plainText (.ofBytes countThenThrow) =
        countThenThrow := by
      simpa [JSC.Environment.plainText, countingEnvironment] using noNul
    have notAccepted : ∀ text hits,
        countingEnvironment.accepts text hits = false := by
      intro text hits
      simp only [JSC.Environment.accepts, JSC.Environment.definedValue,
        countingEnvironment, countingEngine]
      split_ifs <;> rfl
    have notFound : ∀ hits,
        countingEnvironment.finds (.ofBytes countThenThrow) hits = false :=
      fun _ => rfl
    have counts : ∀ hits,
        (countingEnvironment.engine.evaluate countThenThrow hits).2 = hits + 1 := by
      simp [countingEnvironment, countingEngine]
    have countsParenthesized : ∀ hits, (countingEnvironment.engine.evaluate
        ([40] ++ countThenThrow ++ [41]) hits).2 = hits + 1 := by
      simp [countingEnvironment, countingEngine]
    constructor
    · simp only [JSC.Environment.attemptsMade, looksUp, notFound,
        JSC.Environment.evaluationsMade, notAccepted, parenthesized, plain,
        HalfHitch.raw_ofBytes, Option.isSome_some, if_true, Bool.false_eq_true,
        if_false, List.foldl_cons, List.foldl_nil, ScriptEngine.perform,
        ScriptEngine.run, counts, countsParenthesized]
      rfl
    · rw [not_not, JSC.Environment.RunsTwice, notFound, parenthesized]
      refine ⟨by simp, Or.inr ⟨?_, notAccepted _ _, ?_⟩⟩
      · simp [countingEnvironment, countingEngine]
      · rw [JSC.Environment.plainParses, plain]
        simp [countingEnvironment, countingEngine]

end Jib
