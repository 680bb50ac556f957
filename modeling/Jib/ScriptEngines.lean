import Jib.HitchText

/-!
# Engines as evaluation functions

An engine takes a script and a JS state to a value or an exception and a new
JS state.  A script that does not parse throws and leaves the state as it is;
a property of the global object that is no accessor is read without effect.
A page is a JS state with the record of everything that has run in it.
-/

namespace Jib

/-- What can run in a JS state. -/
inductive Attempt
  | script (text : Bytes)
  | accessor (name : Bytes)
  deriving DecidableEq

/-- An engine over values `Value`. -/
structure ScriptEngine (State Value : Type) where
  parses : Bytes → Bool
  evaluate : Bytes → State → Except Value Value × State
  throws_of_not_parses : ∀ text state, parses text = false →
    ∃ exception, evaluate text state = (.error exception, state)
  isAccessor : Bytes → State → Bool
  lookup : Bytes → State → Option Value × State
  lookup_state : ∀ name state, isAccessor name state = false →
    (lookup name state).2 = state

/-- A JS state and what has run in it, the latest last. -/
structure Page (State : Type) where
  state : State
  ran : List Attempt

namespace ScriptEngine

variable {State Value : Type} (engine : ScriptEngine State Value)

/-- The script throws when it is evaluated. -/
def throws (text : Bytes) (state : State) : Bool :=
  match (engine.evaluate text state).1 with
  | .ok _ => false
  | .error _ => true

/-- Evaluate a script; it runs if it parses. -/
def run (text : Bytes) (page : Page State) : Except Value Value × Page State :=
  ((engine.evaluate text page.state).1,
    ⟨(engine.evaluate text page.state).2,
      page.ran ++ if engine.parses text then [.script text] else []⟩)

/-- Read a property of the global object; its getter runs if it has one. -/
def read (name : Bytes) (page : Page State) : Option Value × Page State :=
  ((engine.lookup name page.state).1,
    ⟨(engine.lookup name page.state).2,
      page.ran ++ if engine.isAccessor name page.state then [.accessor name] else []⟩)

/-- What an attempt does to the JS state. -/
def effect (state : State) : Attempt → State
  | .script text => (engine.evaluate text state).2
  | .accessor name => (engine.lookup name state).2

/-- At most one of `attempts` has run between `before` and `after`, and the JS
state is the one it leaves. -/
def RunsOnce (attempts : List Attempt) (before after : Page State) : Prop :=
  (after.ran = before.ran ∧ after.state = before.state) ∨
    ∃ attempt ∈ attempts, after.ran = before.ran ++ [attempt] ∧
      after.state = engine.effect before.state attempt

/-- Whether an attempt runs anything. -/
def takesEffect (state : State) : Attempt → Bool
  | .script text => engine.parses text
  | .accessor name => engine.isAccessor name state

/-- Make one attempt. -/
def perform (page : Page State) : Attempt → Page State
  | .script text => (engine.run text page).2
  | .accessor name => (engine.read name page).2

/-- The attempts of a list, made in order, that run anything. -/
def effective : List Attempt → State → List Attempt
  | [], _ => []
  | attempt :: rest, state =>
      (if engine.takesEffect state attempt then [attempt] else []) ++
        effective rest (engine.effect state attempt)

variable {engine}

@[simp]
theorem effective_nil (state : State) : engine.effective [] state = [] :=
  rfl

@[simp]
theorem effective_script (text : Bytes) (rest : List Attempt) (state : State) :
    engine.effective (.script text :: rest) state =
      (if engine.parses text then [.script text] else []) ++
        engine.effective rest (engine.evaluate text state).2 :=
  rfl

@[simp]
theorem effective_accessor (name : Bytes) (rest : List Attempt) (state : State) :
    engine.effective (.accessor name :: rest) state =
      (if engine.isAccessor name state then [.accessor name] else []) ++
        engine.effective rest (engine.lookup name state).2 :=
  rfl

theorem effect_of_not_takesEffect {state : State} {attempt : Attempt}
    (idle : engine.takesEffect state attempt = false) :
    engine.effect state attempt = state := by
  cases attempt with
  | script text =>
      obtain ⟨exception, evaluated⟩ := engine.throws_of_not_parses text state idle
      simp [effect, evaluated]
  | accessor name => exact engine.lookup_state name state idle

theorem throws_of_unparsed {text : Bytes} {state : State}
    (unparsed : engine.parses text = false) : engine.throws text state = true := by
  obtain ⟨exception, evaluated⟩ := engine.throws_of_not_parses text state unparsed
  simp [throws, evaluated]

theorem perform_eq (page : Page State) (attempt : Attempt) :
    engine.perform page attempt =
      ⟨engine.effect page.state attempt,
        page.ran ++ if engine.takesEffect page.state attempt then [attempt] else []⟩ := by
  cases attempt <;> rfl

theorem ran_performAll (attempts : List Attempt) (page : Page State) :
    (attempts.foldl engine.perform page).ran =
      page.ran ++ engine.effective attempts page.state := by
  induction attempts generalizing page with
  | nil => simp [effective]
  | cons attempt rest ih =>
      rw [List.foldl_cons, ih, perform_eq, effective, List.append_assoc]

variable (engine) in
/-- When nothing takes effect the JS state stays, and when one attempt does it
is what that attempt makes of it. -/
theorem state_performAll (attempts : List Attempt) (page : Page State) :
    (engine.effective attempts page.state = [] →
      (attempts.foldl engine.perform page).state = page.state) ∧
    ∀ attempt, engine.effective attempts page.state = [attempt] →
      attempt ∈ attempts ∧
        (attempts.foldl engine.perform page).state =
          engine.effect page.state attempt := by
  induction attempts generalizing page with
  | nil => simp [effective]
  | cons first rest ih =>
      obtain ⟨unchanged, changed⟩ := ih (engine.perform page first)
      rw [perform_eq] at unchanged changed
      rw [List.foldl_cons, perform_eq, effective]
      cases takes : engine.takesEffect page.state first with
      | false =>
          rw [effect_of_not_takesEffect takes] at unchanged changed ⊢
          simp only [takes, Bool.false_eq_true, if_false, List.nil_append]
            at unchanged changed ⊢
          refine ⟨unchanged, ?_⟩
          intro attempt only
          obtain ⟨member, reached⟩ := changed attempt only
          exact ⟨List.mem_cons_of_mem first member, reached⟩
      | true =>
          simp only [takes, if_true, List.singleton_append] at unchanged changed ⊢
          refine ⟨by simp, ?_⟩
          intro attempt only
          obtain ⟨rfl, noMore⟩ := List.cons_eq_cons.mp only
          exact ⟨by simp, unchanged noMore⟩

variable (engine) in
/-- Attempts leave a page as it is exactly when nothing takes effect. -/
theorem performAll_eq_self_iff (attempts : List Attempt) (page : Page State) :
    attempts.foldl engine.perform page = page ↔
      engine.effective attempts page.state = [] := by
  have ran : (attempts.foldl engine.perform page).ran =
      page.ran ++ engine.effective attempts page.state := ran_performAll attempts page
  constructor
  · intro same
    rw [same] at ran
    exact List.self_eq_append_right.mp ran
  · intro nothing
    rw [nothing, List.append_nil] at ran
    have unchanged := (state_performAll engine attempts page).1 nothing
    cases after : attempts.foldl engine.perform page with
    | mk state attempted =>
        rw [after] at ran unchanged
        cases page
        congr

/-- At most one of the attempts of a list has run exactly when at most one of
them takes effect. -/
theorem runsOnce_performAll_iff {attempts made : List Attempt} {page : Page State}
    (among : made ⊆ attempts) :
    engine.RunsOnce attempts page (made.foldl engine.perform page) ↔
      (engine.effective made page.state).length ≤ 1 := by
  obtain ⟨unchanged, changed⟩ := state_performAll engine made page
  unfold RunsOnce
  rw [ran_performAll]
  constructor
  · rintro (⟨same, _⟩ | ⟨attempt, _, once, _⟩)
    · simp [List.append_right_eq_self.mp same]
    · simp [List.append_cancel_left once]
  · intro atMostOne
    cases ran : engine.effective made page.state with
    | nil => exact Or.inl ⟨by simp, unchanged ran⟩
    | cons attempt others =>
        obtain rfl : others = [] := by
          rw [ran] at atMostOne
          exact List.eq_nil_of_length_eq_zero (by simpa using atMostOne)
        obtain ⟨member, reached⟩ := changed attempt ran
        exact Or.inr ⟨attempt, among member, rfl, reached⟩

end ScriptEngine

end Jib
