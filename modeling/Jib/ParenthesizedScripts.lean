import Jib.BracketGrammars
import Jib.JSCFailures
import Jib.LookupEvaluations
import Jib.QuickJSFailures
import Jib.UnicodeText

/-!
# Scripts in parentheses

A lookup puts its text in parentheses without a look at the brackets in it.
What the grammar of scripts makes of a text that is no expression depends on
whether one of them closes the bracket that was put before the text.
-/

namespace Jib

open BracketGrammar CommandProgram Program UnicodeText

/-- How an engine reads scripts.  A body with brackets that can stand alone in
a script has an expression in between. -/
structure ScriptGrammar (Token Nonterminal : Type) [DecidableEq Token] where
  brackets : Brackets Token
  rules : Nonterminal → List (Symbol Token Nonterminal) → Prop
  script : Nonterminal
  isExpression : Nonterminal → Prop
  reads : Bytes → List Token → Prop
  balanced : brackets.BalancedRules rules
  parenthesized : ∀ lead front middle back, StandsAlone rules script lead →
    rules lead (front ++ .terminal brackets.opening ::
      (middle ++ .terminal brackets.closing :: back)) →
    Derives rules front [] → Derives rules back [] →
    ∃ expression, isExpression expression ∧ middle = [.nonterminal expression]

namespace ScriptGrammar

variable {Token Nonterminal : Type} [DecidableEq Token]
  (grammar : ScriptGrammar Token Nonterminal) (parses : Bytes → Bool)

def IsScript (tokens : List Token) : Prop :=
  Derives grammar.rules [.nonterminal grammar.script] tokens

def IsExpression (tokens : List Token) : Prop :=
  ∃ expression, grammar.isExpression expression ∧
    Derives grammar.rules [.nonterminal expression] tokens

/-- The tokens after an opening bracket are a script with it, and with a closing
bracket after them unless a comment hides it. -/
def IsSpliced (inner : List Token) : Prop :=
  grammar.IsScript (grammar.brackets.opening :: inner ++ [grammar.brackets.closing]) ∨
    grammar.IsScript (grammar.brackets.opening :: inner)

/-- Where the parser accepts a text after an opening bracket, it reads the tokens
of the text between the brackets. -/
structure Describes : Prop where
  closed : ∀ text, parses ([40] ++ text ++ [41]) = true →
    ∃ inner, grammar.reads text inner ∧ grammar.IsSpliced inner
  opened : ∀ text, parses ([40] ++ text) = true →
    ∃ inner, grammar.reads text inner ∧
      grammar.IsScript (grammar.brackets.opening :: inner)

/-- The text is neither a script nor an expression. -/
structure Malformed (text : Bytes) : Prop where
  notScript : parses text = false
  notExpression : ∀ tokens, grammar.reads text tokens → ¬grammar.IsExpression tokens

/-- The parser accepts `whole`, in which a bracket of `text` closes the one that
was put before it. -/
def Escapes (text whole : Bytes) : Prop :=
  parses whole = true ∧
    ∃ front back, grammar.brackets.Balanced front ∧
      grammar.reads text (front ++ grammar.brackets.closing :: back) ∧
      grammar.IsSpliced (front ++ grammar.brackets.closing :: back)

variable {grammar parses} {inner : List Token} {text : Bytes}

/-- What is a script in brackets without closing them is an expression. -/
theorem isExpression_of_isScript (closes : ¬grammar.brackets.ClosesMore inner)
    (isScript : grammar.IsScript
      (grammar.brackets.opening :: inner ++ [grammar.brackets.closing])) :
    grammar.IsExpression inner := by
  obtain ⟨lead, _, stands, rule, front, middle, back, rfl, before, inside, nothing⟩ :=
    grammar.balanced.exists_encloses closes isScript
  obtain ⟨expression, isExpression, rfl⟩ :=
    grammar.parenthesized lead front middle back stands rule before nothing
  exact ⟨expression, isExpression, inside⟩

theorem closesMore_of_isSpliced (notExpression : ¬grammar.IsExpression inner)
    (spliced : grammar.IsSpliced inner) : grammar.brackets.ClosesMore inner := by
  rcases spliced with closed | opened
  · by_contra closes
    exact notExpression (isExpression_of_isScript closes closed)
  · exact grammar.balanced.closesMore opened

theorem escapes_of_closesMore {whole : Bytes} (accepted : parses whole = true)
    (isRead : grammar.reads text inner) (closes : grammar.brackets.ClosesMore inner)
    (spliced : grammar.IsSpliced inner) : grammar.Escapes parses text whole := by
  obtain ⟨front, back, rfl, balanced⟩ := Brackets.closesMore_iff.mp closes
  exact ⟨accepted, front, back, balanced, isRead, spliced⟩

/-- A malformed text is a script in parentheses only if it closes the first. -/
theorem Malformed.escapes_iff (malformed : grammar.Malformed parses text)
    (describes : grammar.Describes parses) :
    grammar.Escapes parses text ([40] ++ text ++ [41]) ↔
      parses ([40] ++ text ++ [41]) = true := by
  constructor
  · exact And.left
  · intro accepted
    obtain ⟨inner, isRead, spliced⟩ := describes.closed text accepted
    have closes := closesMore_of_isSpliced (malformed.notExpression inner isRead) spliced
    exact escapes_of_closesMore accepted isRead closes spliced

theorem Describes.escapes_opened_iff (describes : grammar.Describes parses) :
    grammar.Escapes parses text ([40] ++ text) ↔ parses ([40] ++ text) = true := by
  constructor
  · exact And.left
  · intro accepted
    obtain ⟨inner, isRead, isScript⟩ := describes.opened text accepted
    exact escapes_of_closesMore accepted isRead (grammar.balanced.closesMore isScript)
      (Or.inr isScript)

/-- The engine that is given a C string reads a malformed text in parentheses up
to a NUL. -/
theorem Malformed.escapes_cString_iff {exec : HalfHitch}
    (malformed : grammar.Malformed parses exec.bytes) (describes : grammar.Describes parses) :
    grammar.Escapes parses (cString exec.bytes) (cString (Hitch.parenthesizedText exec)) ↔
      parses (cString (Hitch.parenthesizedText exec)) = true := by
  by_cases hasNul : 0 ∈ exec.bytes
  · have cut : cString (Hitch.parenthesizedText exec) = [40] ++ cString exec.bytes := by
      rw [Hitch.parenthesizedText, cString_append_of_nul (by simp [hasNul])]
      rfl
    rw [cut]
    exact describes.escapes_opened_iff
  · have whole : 0 ∉ Hitch.parenthesizedText exec := by simp [Hitch.parenthesizedText, hasNul]
    rw [cString_of_noNul hasNul, cString_of_noNul whole]
    exact malformed.escapes_iff describes

end ScriptGrammar

/-- The reply is `nil`, nothing has run and the JS state is as it was. -/
def Refuses {State : Type} (isNil : Bool) (before after : Page State) : Prop :=
  isNil = true ∧ after = before

variable {State D : Type}

/-! ## QuickJS -/

namespace QuickJS

/-- The readers answer as they do when nothing has been thrown. -/
def AnswersReaders (other : (command : Command) → State → Answer command) : Prop :=
  ∀ command state, command.isReader = true →
    throwing command ⟨none, none⟩ (other command state) ⟨none, none⟩

variable {engine : ScriptEngine State Evaluated}
  {other : (command : Command) → State → Answer command}

/-- A reader makes nothing of the exception tag. -/
theorem run_convert_exception {α : Type} {reader : Reader D}
    {convert : JSValue → Operation (Option α)} {wrap : Option α → Reply D}
    (reads : reader.ReadsException α convert wrap) (answers : AnswersReaders other)
    (page : Page State) :
    ((convert .exception).run (evaluating engine other) page).1 = none := by
  apply Satisfies.run_of_uses (reads.failing ⟨none, none⟩) (reads.reading .exception)
  intro command page isReader
  cases command <;> first | exact answers _ page.state isReader | cases isReader

/-- What `resolve` gives for texts that do not parse is the exception tag or
nothing. -/
theorem isException_of_resolve {exec : HalfHitch} {page : Page State}
    (unparsed : engine.parses (Hitch.parenthesizedText exec) = false)
    (notScript : engine.parses exec.bytes = false) {value : JSValue}
    (resolves : ((resolve exec).run (evaluating engine other) page).1 = some value) :
    value = .exception := by
  have tag : value.isException = true := by
    simp only [resolve, run_bind, run_evalScript_parenthesized, isException_evalAnswer,
      ScriptEngine.throws_of_unparsed unparsed, if_true, run_evalScript] at resolves
    split at resolves
    · cases resolves
      rw [isException_evalAnswer, ScriptEngine.throws_of_unparsed notScript]
    · cases resolves
  cases value <;> first | rfl | cases tag

theorem isNil_subscript (reader : Reader D) {exec : HalfHitch} {page : Page State}
    (answers : AnswersReaders other)
    (unparsed : engine.parses (Hitch.parenthesizedText exec) = false)
    (notScript : engine.parses exec.bytes = false) :
    ((reader.subscript exec).run (evaluating engine other) page).1.isNil = true := by
  obtain ⟨_, convert, wrap, reads⟩ := reader.readsException
  rw [reads.subscript]
  simp only [typedSubscript, run_bind, run_locked, run_done]
  cases resolves : (resolve exec).run (evaluating engine other) page with
  | mk value resolved =>
      cases value with
      | none => exact reads.isNil
      | some value =>
          obtain rfl := isException_of_resolve unparsed notScript (congrArg Prod.fst resolves)
          simp only [run_bind, run_convert_exception reads answers]
          exact reads.isNil

/-- A lookup of a text that is no script leaves the page as it is exactly when
the text in parentheses is no script. -/
theorem resolve_eq_self_iff {exec : HalfHitch} (page : Page State)
    (notScript : engine.parses exec.bytes = false) :
    ((resolve exec).run (evaluating engine other) page).2 = page ↔
      engine.parses (Hitch.parenthesizedText exec) = false := by
  rw [run_resolve, ScriptEngine.performAll_eq_self_iff, attemptsMade]
  cases parses : engine.parses (Hitch.parenthesizedText exec) with
  | true => split <;> simp [resolveAttempts, parses]
  | false => split <;> simp [resolveAttempts, parses, notScript]

theorem refuses_subscript_iff (reader : Reader D) {exec : HalfHitch} (page : Page State)
    (answers : AnswersReaders other) (notScript : engine.parses exec.bytes = false) :
    Refuses ((reader.subscript exec).run (evaluating engine other) page).1.isNil page
        ((reader.subscript exec).run (evaluating engine other) page).2 ↔
      engine.parses (Hitch.parenthesizedText exec) = false := by
  rw [Refuses, run_subscript, resolve_eq_self_iff page notScript]
  constructor
  · exact And.right
  · intro unparsed
    exact ⟨isNil_subscript reader answers unparsed notScript, unparsed⟩

end QuickJS

/-! ## JavaScriptCore -/

namespace JSC.Environment

variable (environment : Environment State)

/-- The readers answer as they do when nothing has been thrown. -/
def AnswersReaders (jib : JibFields) : Prop :=
  ∀ command page, command.readsOnly = true →
    throwing jib command ⟨none, none⟩ (environment.evaluating command page).1 ⟨none, none⟩

/-- The string that is made of UTF-8 has its characters. -/
def KeepsText : Prop :=
  ∀ text : List Char, (environment.string (utf8 text)).text = utf8 text

/-- The name that is looked up is not that of a property. -/
structure NotGlobal (exec : HalfHitch) (state : State) : Prop where
  notFound : environment.finds exec state = false
  notAccessor : environment.readsAccessor exec state = false

variable {environment}

theorem run_convert_undefined {α : Type} {jib : JibFields} {reader : Reader D} {absent shown : α}
    {convert : Option JSValueRef → Operation α} {wrap : α → Reply D}
    (reads : reader.ReadsUndefined jib α absent convert wrap shown)
    (answers : environment.AnswersReaders jib) (page : Page State) :
    ((convert (some jib.undefined)).run environment.evaluating page).1 = shown :=
  Satisfies.run_of_uses (reads.converts ⟨none, none⟩) (reads.readsOnly _) answers page

theorem definedValue_of_unparsed {text : Bytes} (state : State)
    (unparsed : environment.engine.parses text = false) :
    environment.definedValue text state = none := by
  have refused : environment.accepts text state = false := not_accepts_of_unparsed unparsed
  simpa [accepts] using refused

section

variable {exec : HalfHitch} {page : Page State}

/-- The lookup of what is not the name of a property changes nothing. -/
theorem run_resolveGlobal_of_notGlobal (jib : JibFields)
    (notGlobal : environment.NotGlobal exec page.state) :
    (resolveGlobal jib exec).run environment.evaluating page = (none, page) := by
  rw [run_resolveGlobal]
  cases looksUp : looksUp exec with
  | false => rfl
  | true =>
      have nothing : environment.globalValue exec page.state = none := by
        simpa [finds] using notGlobal.notFound
      have idle : environment.engine.takesEffect page.state
          (.accessor (environment.plainText exec)) = false := by
        simpa [readsAccessor, looksUp, ScriptEngine.takesEffect] using notGlobal.notAccessor
      have unchanged : environment.engine.perform page
          (.accessor (environment.plainText exec)) = page := by
        rw [ScriptEngine.perform_eq, ScriptEngine.effect_of_not_takesEffect idle, idle]
        simp
      rw [if_pos rfl, nothing, unchanged]

theorem run_resolve_of_notGlobal (jib : JibFields)
    (notGlobal : environment.NotGlobal exec page.state) :
    (resolve jib exec).run environment.evaluating page =
      (resolveEvaluated jib exec).run environment.evaluating page := by
  simp only [resolve, setException, call_bind, done_bind, run_call]
  change Program.run environment.evaluating (resolveGlobal jib exec >>= _) page = _
  rw [run_bind, run_resolveGlobal_of_notGlobal jib notGlobal]

/-- A lookup leaves the page as it is exactly when the text is no script, in
parentheses or not. -/
theorem resolve_eq_self_iff (jib : JibFields)
    (notGlobal : environment.NotGlobal exec page.state) :
    ((resolve jib exec).run environment.evaluating page).2 = page ↔
      environment.engine.parses (environment.parenthesizedText exec) = false ∧
        environment.plainParses exec = false := by
  rw [run_resolve_of_notGlobal jib notGlobal, run_resolveEvaluated,
    ScriptEngine.performAll_eq_self_iff, effective_evaluationsMade]
  cases parses : environment.engine.parses (environment.parenthesizedText exec) with
  | true => simp
  | false =>
      rw [not_accepts_of_unparsed parses]
      simp

/-- What `resolve` gives for texts that do not parse is `undefined`. -/
theorem resolve_of_unparsed (jib : JibFields)
    (notGlobal : environment.NotGlobal exec page.state)
    (unparsed : environment.engine.parses (environment.parenthesizedText exec) = false)
    (notScript : environment.plainParses exec = false) :
    (resolve jib exec).run environment.evaluating page = (some jib.undefined, page) := by
  apply Prod.ext
  · rw [run_resolve_of_notGlobal jib notGlobal, run_resolveEvaluated,
      definedValue_of_unparsed page.state unparsed]
    cases hasMemory : exec.raw.isSome with
    | false => rfl
    | true =>
        have idle : environment.engine.takesEffect page.state
            (.script (environment.parenthesizedText exec)) = false := unparsed
        have plain : environment.engine.parses (environment.plainText exec) = false := by
          simpa [plainParses, hasMemory] using notScript
        obtain ⟨exception, evaluated⟩ :=
          environment.engine.throws_of_not_parses _ page.state plain
        simp [ScriptEngine.effect_of_not_takesEffect idle, evaluated, Except.toOption]
  · exact (resolve_eq_self_iff jib notGlobal).mpr ⟨unparsed, notScript⟩

theorem isNil_subscript (jib : JibFields) (reader : Reader D)
    (notGlobal : environment.NotGlobal exec page.state)
    (answers : environment.AnswersReaders jib)
    (unparsed : environment.engine.parses (environment.parenthesizedText exec) = false)
    (notScript : environment.plainParses exec = false) :
    ((reader.subscript jib exec).run environment.evaluating page).1.isNil =
      !reader.showsUndefined := by
  obtain ⟨_, absent, convert, wrap, shown, reads⟩ := reader.readsUndefined jib
  rw [reads.subscript, run_bind, run_done]
  change (wrap ((locked (resolve jib exec >>= convert)).run environment.evaluating
    page).1).isNil = _
  rw [run_locked, run_bind, resolve_of_unparsed jib notGlobal unparsed notScript,
    run_convert_undefined reads answers, reads.isNil]

theorem refuses_subscript_iff (jib : JibFields) (reader : Reader D)
    (notGlobal : environment.NotGlobal exec page.state)
    (answers : environment.AnswersReaders jib) :
    Refuses ((reader.subscript jib exec).run environment.evaluating page).1.isNil page
        ((reader.subscript jib exec).run environment.evaluating page).2 ↔
      reader.showsUndefined = false ∧
        environment.engine.parses (environment.parenthesizedText exec) = false ∧
          environment.plainParses exec = false := by
  rw [Refuses, run_subscript, resolve_eq_self_iff jib notGlobal]
  constructor
  · rintro ⟨isNil, unparsed, notScript⟩
    rw [isNil_subscript jib reader notGlobal answers unparsed notScript] at isNil
    exact ⟨by simpa using isNil, unparsed, notScript⟩
  · rintro ⟨shows, unparsed, notScript⟩
    refine ⟨?_, unparsed, notScript⟩
    rw [isNil_subscript jib reader notGlobal answers unparsed notScript, shows]
    rfl

end

/-! ### Texts that are cut off at a NUL -/

section

variable {exec : HalfHitch} {text : List Char}

theorem plainText_eq (keeps : environment.KeepsText) (isText : exec.bytes = utf8 text) :
    environment.plainText exec = cString exec.bytes := by
  rw [plainText, isText, cString, takeWhile_utf8, keeps]

theorem parenthesizedText_eq (keeps : environment.KeepsText) (isText : exec.bytes = utf8 text) :
    environment.parenthesizedText exec = cString (Hitch.parenthesizedText exec) := by
  have whole : Hitch.parenthesizedText exec = utf8 ('(' :: text ++ [')']) := by
    simp only [Hitch.parenthesizedText, isText, utf8, List.flatMap_append,
      List.flatMap_cons, List.flatMap_nil, List.append_nil]
    rfl
  rw [parenthesizedText, whole, cString, takeWhile_utf8, keeps]

/-- A text that is no script is tried as one only up to a NUL. -/
theorem plainParses_eq_false_iff (plain : environment.plainText exec = cString exec.bytes)
    (notScript : environment.engine.parses exec.bytes = false) :
    environment.plainParses exec = false ↔
      (0 ∈ exec.bytes → environment.engine.parses (cString exec.bytes) = false) := by
  rw [plainParses, plain]
  by_cases hasNul : 0 ∈ exec.bytes
  · have hasMemory := HalfHitch.isSome_raw_of_bytes_ne_nil (List.ne_nil_of_mem hasNul)
    simp [hasNul, hasMemory]
  · simp [hasNul, cString_of_noNul, notScript]

end

end JSC.Environment

/-- A typed subscript of a malformed text gives `nil`, runs nothing and leaves the
JS state as it is exactly when no bracket of the text closes the one that was put
before it so that the whole is a script.  In JavaScriptCore, where a text ends at
a NUL, what stands before the NUL must not be a script either, and the reader must
be one that shows `undefined` as `nil`. -/
theorem lookup_refuses_iff {Token Nonterminal : Type} [DecidableEq Token]
    (grammar : ScriptGrammar Token Nonterminal) (exec : HalfHitch) (page : Page State)
    (engine : ScriptEngine State QuickJS.Evaluated)
    (other : (command : QuickJS.Command) → State → QuickJS.Answer command)
    (reader : QuickJS.Reader D) (environment : JSC.Environment State) (jib : JSC.JibFields)
    (jscReader : JSC.Reader D) :
    (grammar.Malformed engine.parses exec.bytes → grammar.Describes engine.parses →
      QuickJS.AnswersReaders other →
      (Refuses ((reader.subscript exec).run (QuickJS.evaluating engine other) page).1.isNil
          page ((reader.subscript exec).run (QuickJS.evaluating engine other) page).2 ↔
        ¬grammar.Escapes engine.parses exec.bytes (Hitch.parenthesizedText exec))) ∧
    ∀ text, exec.bytes = utf8 text →
      grammar.Malformed environment.engine.parses exec.bytes →
      grammar.Describes environment.engine.parses → environment.KeepsText →
      environment.AnswersReaders jib → environment.NotGlobal exec page.state →
      (Refuses ((jscReader.subscript jib exec).run environment.evaluating page).1.isNil
          page ((jscReader.subscript jib exec).run environment.evaluating page).2 ↔
        jscReader.showsUndefined = false ∧
          ¬grammar.Escapes environment.engine.parses (cString exec.bytes)
            (cString (Hitch.parenthesizedText exec)) ∧
          (0 ∈ exec.bytes → environment.engine.parses (cString exec.bytes) = false)) := by
  constructor
  · intro malformed describes answers
    rw [QuickJS.refuses_subscript_iff reader page answers malformed.notScript,
      Hitch.parenthesizedText, malformed.escapes_iff describes, Bool.not_eq_true]
  · intro text isText malformed describes keeps answers notGlobal
    have plain := JSC.Environment.plainText_eq keeps isText
    rw [JSC.Environment.refuses_subscript_iff jib jscReader notGlobal answers,
      JSC.Environment.plainParses_eq_false_iff plain malformed.notScript,
      JSC.Environment.parenthesizedText_eq keeps isText,
      malformed.escapes_cString_iff describes, Bool.not_eq_true]

/-! ## A text that only runs in parentheses -/

inductive SumToken
  | number
  | plus
  | opening
  | closing
  deriving DecidableEq

inductive SumNonterminal
  | script
  | expression
  | primary

/-- Sums of numbers and of sums in parentheses. -/
inductive SumRule : SumNonterminal → List (Symbol SumToken SumNonterminal) → Prop
  | script : SumRule .script [.nonterminal .expression]
  | single : SumRule .expression [.nonterminal .primary]
  | sum : SumRule .expression
      [.nonterminal .expression, .terminal .plus, .nonterminal .primary]
  | number : SumRule .primary [.terminal .number]
  | parenthesized : SumRule .primary
      [.terminal .opening, .nonterminal .expression, .terminal .closing]

/-- The token that a byte is: a digit, `+` or a parenthesis. -/
def sumToken (byte : UInt8) : Option SumToken :=
  if byte = 40 then some .opening
  else if byte = 41 then some .closing
  else if byte = 43 then some .plus
  else if 48 ≤ byte ∧ byte < 58 then some .number
  else none

def sumBrackets : Brackets SumToken := ⟨.opening, .closing, by decide⟩

def sumGrammar : ScriptGrammar SumToken SumNonterminal where
  brackets := sumBrackets
  rules := SumRule
  script := .script
  isExpression := (· = .expression)
  reads text tokens := text.mapM sumToken = some tokens
  balanced := by
    intro head body rule
    cases rule <;> decide
  parenthesized := by
    intro lead front middle back _ rule _ _
    generalize isBody : front ++ .terminal sumBrackets.opening ::
      (middle ++ .terminal sumBrackets.closing :: back) = body at rule
    refine ⟨.expression, rfl, ?_⟩
    have opens : .terminal .opening ∈ body := by simp [← isBody, sumBrackets]
    cases rule with
    | parenthesized =>
        rcases front with _ | ⟨first, front⟩
        · rcases middle with _ | ⟨next, middle⟩
          · cases isBody
          · simp [List.append_eq_singleton_iff] at isBody
            simp [isBody]
        · have opensLater : (.terminal .opening : Symbol SumToken SumNonterminal) ∈
              [.nonterminal .expression, .terminal .closing] := by
            rw [← (List.cons_eq_cons.mp isBody).2]
            simp [sumBrackets]
          simp at opensLater
    | _ => simp at opens

theorem derives_parenthesized_number :
    Derives SumRule [.nonterminal .primary] [.opening, .number, .closing] := by
  have number : Derives SumRule [.nonterminal .expression] [.number] :=
    derives_nonterminal .single (derives_nonterminal .number (.terminal _ .nil))
  exact derives_nonterminal .parenthesized
    (.terminal .opening (number.append (.terminal .closing .nil)))

/-- `"1)+(2"`. -/
def sumText : Bytes := [49, 41, 43, 40, 50]

/-- An engine that runs `"(1)+(2)"` and nothing else. -/
def sumEngine {Value : Type} (sum thrown : Value) : ScriptEngine Unit Value where
  parses text := text = [40] ++ sumText ++ [41]
  evaluate text state :=
    if text = [40] ++ sumText ++ [41] then (.ok sum, state) else (.error thrown, state)
  throws_of_not_parses text state unparsed := ⟨thrown, if_neg (by simpa using unparsed)⟩
  isAccessor _ _ := false
  lookup _ state := (none, state)
  lookup_state _ _ _ := rfl

/-- `"(1)+(2)"` is a script. -/
theorem sum_isScript :
    sumGrammar.IsScript [.opening, .number, .closing, .plus, .opening, .number, .closing] := by
  have first := derives_nonterminal SumRule.single derives_parenthesized_number
  have rest := Derives.terminal SumToken.plus derives_parenthesized_number
  exact derives_nonterminal SumRule.script (derives_nonterminal SumRule.sum (first.append rest))

theorem reads_sumText :
    sumGrammar.reads sumText [.number, .closing, .plus, .opening, .number] := by
  change sumText.mapM sumToken = _
  decide +kernel

theorem describes_sum {Value : Type} (sum thrown : Value) :
    sumGrammar.Describes (sumEngine sum thrown).parses where
  closed text accepted := by
    obtain rfl : text = sumText := by simpa [sumEngine] using accepted
    exact ⟨_, reads_sumText, .inl sum_isScript⟩
  opened text accepted := by
    obtain rfl : text = sumText ++ [41] := by simpa [sumEngine] using accepted
    refine ⟨[.number, .closing, .plus, .opening, .number, .closing], ?_, sum_isScript⟩
    change (sumText ++ [41]).mapM sumToken = _
    decide +kernel

/-- The brackets of `"1)+(2"` do not match. -/
theorem malformed_sum {Value : Type} (sum thrown : Value) :
    sumGrammar.Malformed (sumEngine sum thrown).parses sumText where
  notScript := by
    change decide (sumText = [40] ++ sumText ++ [41]) = false
    decide +kernel
  notExpression := by
    rintro tokens isRead ⟨nonterminal, rfl, derives⟩
    obtain rfl := Option.some_inj.mp (isRead.symm.trans reads_sumText)
    exact absurd (sumGrammar.balanced.balanced derives) (by decide)

/-- QuickJS with this engine; what it converts to a number is 3. -/
def sumAnswer : (command : QuickJS.Command) → Unit → QuickJS.Answer command
  | .jsToInt64 _, _ => 3
  | .jsJSONStringify value _ _, _ => value
  | command, _ => QuickJS.constantAnswer .undefined command

def sumQuickJS : ScriptEngine Unit QuickJS.Evaluated :=
  sumEngine ⟨.int 3, rfl⟩ ⟨.null, rfl⟩

/-- JavaScriptCore with this engine; reference 0 is `undefined`, and what it
converts to a number is 3. -/
def sumEnvironment : JSC.Environment Unit where
  engine := sumEngine 3 1
  string text := ⟨0, text⟩
  isUndefined value := value == 0
  other
    | .jsValueIsNumber .., _ => true
    | .jsValueToNumber .., _ => .ofInt 3
    | .jsValueToStringCopy _ value, _ =>
        some ⟨0, if value = 0 then JSC.undefinedHitch else [51]⟩
    | command, _ => JSC.emptyAnswer command

/-- `jib[int: "1)+(2"]` is 3 in both backends. -/
theorem lookup_runs_sumText :
    (sumGrammar.Malformed sumQuickJS.parses sumText ∧
      (QuickJS.Reader.int.subscript (.ofBytes sumText) : QuickJS.Operation (QuickJS.Reply Unit)).run
          (QuickJS.evaluating sumQuickJS sumAnswer) ⟨(), []⟩ =
        (.int (some 3), ⟨(), [.script ([40] ++ sumText ++ [41])]⟩)) ∧
    sumGrammar.Malformed sumEnvironment.engine.parses sumText ∧
      sumEnvironment.NotGlobal (.ofBytes sumText) () ∧
      (JSC.Reader.int.subscript JSC.someJib (.ofBytes sumText) :
          JSC.Operation (JSC.Reply Unit)).run sumEnvironment.evaluating ⟨(), []⟩ =
        (.int (.ok (some 3)), ⟨(), [.script ([40] ++ sumText ++ [41])]⟩) := by
  exact ⟨⟨malformed_sum _ _, rfl⟩, malformed_sum _ _, ⟨rfl, rfl⟩, rfl⟩

theorem answersReaders_sumAnswer : QuickJS.AnswersReaders sumAnswer := by
  intro command state isReader
  cases command with
  | jsToCString => exact ⟨rfl, fun _ => rfl, nofun⟩
  | jsJSONStringify => exact ⟨rfl, id⟩
  | jsIsFunction => exact ⟨rfl, fun _ => rfl⟩
  | _ => first | rfl | cases isReader

theorem answersReaders_sumEnvironment : sumEnvironment.AnswersReaders JSC.someJib := by
  intro command page readsOnly
  cases command with
  | jsStringGetMaximumUTF8CStringSize => exact ⟨rfl, Nat.lt_succ_self _⟩
  | jsStringGetUTF8CString => exact ⟨rfl, fun _ => rfl⟩
  | jsValueIsUndefined context value =>
      refine ⟨rfl, ?_⟩
      rintro rfl
      rfl
  | jsValueToStringCopy context value =>
      refine ⟨rfl, ?_, nofun⟩
      rintro rfl
      rfl
  | jsValueCreateJSONString => exact ⟨rfl, fun _ => rfl⟩
  | _ => first | rfl | cases readsOnly

theorem lookup_refuses_iff_sumText :
    let exec : HalfHitch := .ofBytes sumText
    let quickJS := (QuickJS.Reader.int.subscript exec :
      QuickJS.Operation (QuickJS.Reply Unit)).run
        (QuickJS.evaluating sumQuickJS sumAnswer) ⟨(), []⟩
    let javaScriptCore := (JSC.Reader.int.subscript JSC.someJib exec :
      JSC.Operation (JSC.Reply Unit)).run sumEnvironment.evaluating ⟨(), []⟩
    (Refuses quickJS.1.isNil ⟨(), []⟩ quickJS.2 ↔
      ¬sumGrammar.Escapes sumQuickJS.parses exec.bytes (Hitch.parenthesizedText exec)) ∧
    (Refuses javaScriptCore.1.isNil ⟨(), []⟩ javaScriptCore.2 ↔
      (JSC.Reader.int : JSC.Reader Unit).showsUndefined = false ∧
        ¬sumGrammar.Escapes sumEnvironment.engine.parses (cString exec.bytes)
          (cString (Hitch.parenthesizedText exec)) ∧
        (0 ∈ exec.bytes → sumEnvironment.engine.parses (cString exec.bytes) = false)) := by
  have both := lookup_refuses_iff (D := Unit) sumGrammar (.ofBytes sumText) ⟨(), []⟩ sumQuickJS
    sumAnswer .int sumEnvironment JSC.someJib .int
  exact ⟨both.1 (malformed_sum _ _) (describes_sum _ _) answersReaders_sumAnswer,
    both.2 ['1', ')', '+', '(', '2'] rfl (malformed_sum _ _) (describes_sum _ _)
      (fun _ => rfl) answersReaders_sumEnvironment ⟨rfl, rfl⟩⟩

end Jib
