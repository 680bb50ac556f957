import Jib.JSCFailures
import Jib.QuickJSFailures

/-!
# Failure signals of the two backends

QuickJS always signals a failure by `nil`, but its lookups do not say what was
thrown.  JavaScriptCore always says what was thrown, but some of its operations
give a value for a failure.
-/

namespace Jib

open CommandProgram Program

variable {D : Type}

/-! ## Nil for a failure -/

/-- QuickJS signals every failure by `nil`; JavaScriptCore does unless the
operation that failed hides it. -/
theorem signalsFailure_iff (global : QuickJS.JSValue) (jib : JSC.JibFields) :
    (∀ (operation : QuickJS.PublicOperation D) (before after : QuickJS.Failing)
        (reply : QuickJS.Reply D),
      (∀ script ∈ operation.script?, script.bytes ≠ []) →
        (operation.program global).Yields QuickJS.throwing before.enter reply after →
          SignalsFailure (operation.thrown after).isSome reply.isNil operation.tellsSuccess) ∧
      ∀ (operation : JSC.PublicOperation D) (before after : JSC.Failing) (reply : JSC.Reply D),
        (∀ script ∈ operation.script?, script.bytes ≠ []) →
          (operation.program jib).Yields (JSC.throwing jib) before.enter reply after →
            (SignalsFailure (operation.thrown after).isSome reply.isNil operation.tellsSuccess ↔
              (operation.hidesFailure = true → operation.thrown after = none)) := by
  constructor
  · intro operation before after reply nonEmpty yields
    have ends := (operation.ensures_program global before).of_yields yields
    exact ends.signals nonEmpty
  · intro operation before after reply nonEmpty yields
    have ends := (operation.ensures_program before).of_yields yields
    constructor
    · intro signals hides
      by_contra threw
      have isSome := Option.isSome_iff_ne_none.mpr threw
      have isNil := ends.isNil isSome
      rw [signals.isNil_of_threw isSome, hides] at isNil
      cases isNil
    · intro shown
      constructor
      · intro threw
        rw [ends.isNil threw]
        cases hides : operation.hidesFailure with
        | false => rfl
        | true => simp [shown hides] at threw
      · exact fun tells isNil => ends.threw tells nonEmpty isNil

/-- The state of a new `Jib`. -/
def JSC.freshFailing : JSC.Failing := ⟨none, none⟩

theorem JSC.yields_errorHandle {α : Type} (program : JSC.Operation α) :
    program.Yields (JSC.throwing JSC.someJib) JSC.freshFailing
      (program.run JSC.errorHandle JSC.freshFailing).1
      (program.run JSC.errorHandle JSC.freshFailing).2 :=
  yields_run_of_keeps (fun command _ threw => JSC.errorHandle_follows command threw) program
    (by simp [JSC.ThrewError, JSC.freshFailing])

/-- `"x"`. -/
def scriptX : HalfHitch := .ofBytes [120]

/-- A new `Jib` may fail to signal that this operation threw. -/
def JSC.Hides (operation : JSC.PublicOperation Unit) : Prop :=
  ∃ reply after,
    (operation.program JSC.someJib).Yields (JSC.throwing JSC.someJib) JSC.freshFailing.enter
        reply after ∧
      ¬SignalsFailure (operation.thrown after).isSome reply.isNil operation.tellsSuccess

/-- What the subscript of a string throws is read as `"undefined"`, and the call
of a function for nothing gives `false`. -/
theorem not_signalsFailure_hiding :
    JSC.Hides (.subscript .string scriptX) ∧ JSC.Hides (.callNone ⟨0, some 2, none⟩ []) := by
  constructor
  · refine ⟨_, _, JSC.yields_errorHandle _, ?_⟩
    exact fun signals => absurd signals.isNil_of_threw (by decide +kernel)
  · refine ⟨_, _, JSC.yields_errorHandle _, ?_⟩
    exact fun signals => absurd signals.isNil_of_threw (by decide +kernel)

theorem signalsFailure_iff_eval :
    ∃ reply after,
      ((JSC.PublicOperation.eval scriptX : JSC.PublicOperation Unit).program JSC.someJib).Yields
          (JSC.throwing JSC.someJib) JSC.freshFailing.enter reply after ∧
        (SignalsFailure ((JSC.PublicOperation.eval scriptX : JSC.PublicOperation Unit).thrown
            after).isSome reply.isNil true ↔ (false = true → after.thrown = none)) :=
  ⟨_, _, JSC.yields_errorHandle _,
    (signalsFailure_iff .undefined JSC.someJib).2 (.eval scriptX) JSC.freshFailing _ _
      (by decide) (JSC.yields_errorHandle _)⟩

/-! ## The exception of the operation that failed -/

namespace QuickJS

/-- Operations one after another; `thrown` starts anew with each. -/
def failureMachine (D : Type) (global : JSValue) :
    Machine interface (PublicOperation D) (Reply D) Failing where
  program := PublicOperation.program global
  effect := throwing
  Enabled := fun _ _ => True
  enter := fun _ => Failure.enter
  finish := fun _ _ failure => failure

/-- A lookup leaves the field alone, which is right if it happens to hold what
the lookup is to leave there; the other operations record a text up to its
first NUL. -/
def PublicOperation.CanTell (operation : PublicOperation D) (before : Option Bytes)
    (thrown : Option (JSValue × Option Bytes)) : Prop :=
  if operation.isSubscript then
    match thrown with
    | none => before = none
    | some (_, text) => ∀ bytes ∈ text, before = some bytes
  else ∀ value bytes, thrown = some (value, some bytes) → 0 ∉ bytes

theorem PublicOperation.thrown_of_thrown {operation : PublicOperation D} {after : Failing}
    {pair : JSValue × Option Bytes} (threw : operation.thrown after = some pair) :
    after.thrown = some pair := by
  unfold PublicOperation.thrown at threw
  split at threw
  · split at threw
    · exact threw
    · cases threw
  · exact threw

theorem PublicOperation.Ends.tells_iff_canTell {operation : PublicOperation D}
    {before after : Failing} {reply : Reply D} (ends : operation.Ends before reply after) :
    TellsException operation.isSubscript (operation.thrown after) after.exception ↔
      operation.CanTell before.exception (operation.thrown after) := by
  unfold PublicOperation.CanTell
  cases isSubscript : operation.isSubscript with
  | true =>
      rw [ends.kept isSubscript]
      cases threw : operation.thrown after with
      | none =>
          constructor
          · exact fun tells => tells.cleared rfl rfl
          · exact fun cleared => ⟨by simp, fun _ _ => cleared⟩
      | some pair =>
          obtain ⟨value, text⟩ := pair
          constructor
          · intro tells bytes isText
            obtain rfl : text = some bytes := isText
            exact tells.described value bytes rfl
          · intro already
            refine ⟨?_, by simp⟩
            intro other bytes isThrown
            obtain ⟨rfl, rfl⟩ : value = other ∧ text = some bytes := by simpa using isThrown
            exact already bytes rfl
  | false =>
      have recorded := ends.recorded isSubscript
      constructor
      · intro tells value bytes threw
        have isText := tells.described value bytes threw
        rw [recorded _ (PublicOperation.thrown_of_thrown threw)] at isText
        exact cString_eq_self_iff.mp (by simpa [recordedText] using isText)
      · intro noNul
        refine ⟨?_, by simp⟩
        intro value bytes threw
        rw [recorded _ (PublicOperation.thrown_of_thrown threw)]
        simp [recordedText, cString_of_noNul (noNul value bytes threw)]

end QuickJS

/-- Operations of a `Jib` that has not been released, one after another. -/
def JSC.failureMachine (D : Type) (jib : JSC.JibFields) :
    Machine JSC.interface (JSC.PublicOperation D) (JSC.Reply D) JSC.Failing where
  program := JSC.PublicOperation.program jib
  effect := JSC.throwing jib
  Enabled := fun _ _ => True
  enter := fun _ => Failure.enter
  finish := fun _ _ failure => failure

/-- In every history of a `Jib`, whatever its earlier operations have left in
the field: with JavaScriptCore it always tells of the last operation, with
QuickJS exactly if that could tell. -/
theorem tellsException_iff (global : QuickJS.JSValue) (jib : JSC.JibFields) :
    (∀ start completed last, (QuickJS.failureMachine D global).History start completed last →
      ∀ ended ∈ completed,
        (TellsException ended.operation.isSubscript (ended.operation.thrown ended.after)
            ended.after.exception ↔
          ended.operation.CanTell ended.before.exception
            (ended.operation.thrown ended.after))) ∧
      ∀ start completed last, (JSC.failureMachine D jib).History start completed last →
        ∀ ended ∈ completed,
          TellsException ended.operation.isSubscript (ended.operation.thrown ended.after)
            ended.after.exception := by
  constructor
  · intro start completed last history ended member
    have each := (history.forall_completed (fun _ => True)
      (fun operation before reply after => operation.Ends before reply after) trivial
      fun operation before _ _ => (operation.ensures_program global before).mono
        fun _ _ ends => ⟨ends, trivial⟩).1
    exact (each ended member).2.tells_iff_canTell
  · intro start completed last history ended member
    have each := (history.forall_completed (fun _ => True)
      (fun operation _ reply after => operation.Ends reply after) trivial
      fun operation before _ _ => (operation.ensures_program before).mono
        fun _ _ ends => ⟨ends, trivial⟩).1
    exact (each ended member).2.tells

/-- The state of a new `Jib`. -/
def QuickJS.freshFailing : QuickJS.Failing := ⟨none, none⟩

theorem QuickJS.yields_errorHandle {α : Type} (program : QuickJS.Operation α) :
    program.Yields QuickJS.throwing QuickJS.freshFailing
      (program.run QuickJS.errorHandle QuickJS.freshFailing).1
      (program.run QuickJS.errorHandle QuickJS.freshFailing).2 :=
  yields_run_of_keeps (fun command _ threw => QuickJS.errorHandle_follows command threw) program
    (by simp [QuickJS.ThrewError, QuickJS.freshFailing])

def QuickJS.lookup : QuickJS.PublicOperation Unit := .subscript .string scriptX

/-- A new `Jib` whose only operation so far is a lookup that threw. -/
theorem QuickJS.history_lookup :
    ∃ reply after, (QuickJS.failureMachine Unit .undefined).History QuickJS.freshFailing
        [⟨QuickJS.lookup, QuickJS.freshFailing, reply, after⟩] after ∧
      after.thrown = some (.object 1, some QuickJS.errorText) ∧ after.exception = none := by
  have yields := QuickJS.yields_errorHandle (QuickJS.lookup.program .undefined)
  refine ⟨_, _, .operation .start QuickJS.lookup trivial yields, ?_, ?_⟩
  · decide +kernel
  · decide +kernel

/-- With QuickJS the field does not tell what the lookup threw. -/
theorem not_tellsException_lookup :
    ∃ completed last, (QuickJS.failureMachine Unit .undefined).History QuickJS.freshFailing
        completed last ∧
      ∃ ended ∈ completed, ¬TellsException ended.operation.isSubscript
        (ended.operation.thrown ended.after) ended.after.exception := by
  obtain ⟨reply, after, history, threw, nothing⟩ := QuickJS.history_lookup
  refine ⟨_, _, history, _, List.mem_singleton_self _, ?_⟩
  intro tells
  have isText := tells.described (.object 1) QuickJS.errorText threw
  simp [nothing] at isText

theorem tellsException_iff_lookup :
    ∃ reply after, (QuickJS.failureMachine Unit .undefined).History QuickJS.freshFailing
        [⟨QuickJS.lookup, QuickJS.freshFailing, reply, after⟩] after ∧
      (TellsException true after.thrown after.exception ↔
        QuickJS.lookup.CanTell none after.thrown) := by
  obtain ⟨reply, after, history, _⟩ := QuickJS.history_lookup
  exact ⟨reply, after, history,
    (tellsException_iff .undefined JSC.someJib).1 _ _ _ history _ (List.mem_singleton_self _)⟩

end Jib
