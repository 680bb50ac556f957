import Jib.JSCLifetimes
import Jib.JSCPublicOperations
import Jib.QuickJSPublicOperations
import Jib.SharedCells

/-!
# The shared text of what has none

A `Hitch` is a mutable object.  Where a value has no text, callbacks are given
`undefinedHitch`, which is one object for the whole process; in JavaScriptCore
readers give it too.  Here the readers say whether they have text of their own
or give the constant.
-/

open CommandProgram Program SharedCells

namespace CommandProgram.Program

variable {I : Interface} {α β γ : Type}

/-- Results that are mapped one by one can be mapped at the end. -/
theorem mapEach_map (f : β → γ) (body : α → Program I β) (elements : List α) :
    mapEach (fun element => f <$> body element) elements =
      List.map f <$> mapEach body elements := by
  induction elements with
  | nil => rfl
  | cons element rest ih =>
      rw [mapEach, ih]
      simp [mapEach, map_eq_pure_bind]

/-- Every result of `mapEach` is as `P` says exactly when each element gives such
a result at its turn. -/
theorem forall_mem_run_mapEach {State : Type} (handle : Handler I State)
    (body : α → Program I β) (P : β → Prop) (elements : List α) (state : State) :
    (∀ result ∈ ((mapEach body elements).run handle state).1, P result) ↔
      ∀ before element after, elements = before ++ element :: after →
        P ((body element).run handle ((mapEach body before).run handle state).2).1 := by
  induction elements generalizing state with
  | nil => simp [mapEach]
  | cons first rest ih =>
      rw [run_mapEach_cons, List.forall_mem_cons, ih]
      constructor
      · rintro ⟨here, others⟩ before element after split
        cases before with
        | nil =>
            obtain ⟨rfl, rfl⟩ := List.cons.inj split
            exact here
        | cons _ before =>
            obtain ⟨rfl, rfl⟩ := List.cons.inj split
            rw [run_mapEach_cons]
            exact others before element after rfl
      · intro each
        refine ⟨each [] first rest rfl, fun before element after split => ?_⟩
        have later := each (first :: before) element after (by rw [split]; rfl)
        rwa [run_mapEach_cons] at later

end CommandProgram.Program

namespace Jib

/-! ## QuickJS -/

namespace QuickJS

variable {D World : Type}

/-- What hands out `Hitch` objects: a call of a function that was made, with its
arguments, and a public operation. -/
inductive HitchCall (D : Type)
  | invoke (arguments : List JSValue)
  | perform (operation : PublicOperation D)

/-- The readers that give a `Hitch`. -/
def Reader.givesHitch : Reader D → Bool
  | .hitch => true
  | .json => true
  | _ => false

def PublicOperation.givesHitch : PublicOperation D → Bool
  | .subscript reader _ => reader.givesHitch
  | .call reader _ _ => reader.givesHitch
  | _ => false

def Reply.hitch : Reply D → Option Bytes
  | .text value => value
  | _ => none

/-- The texts of the `Hitch` objects that an operation gives. -/
def PublicOperation.hitches (global : JSValue) (operation : PublicOperation D) :
    Operation (List (Option Bytes)) := do
  let reply ← operation.program global
  return if operation.givesHitch then reply.hitch.toList.map some else []

/-- The reader of a callback has text or gives the constant. -/
theorem callbackParameter_eq (argument : JSValue) :
    callbackParameter argument = (fun text => text.getD undefinedHitch) <$>
      jsValueToHitch argument :=
  rfl

def hitchSupply (global : JSValue) (handle : Handler interface World) :
    Supply (HitchCall D) World Bytes
  | .invoke arguments, world => (mapEach jsValueToHitch arguments).run handle world
  | .perform operation, world => (operation.hitches global).run handle world

/-- The texts that a call hands out as the operations read them. -/
def HitchCall.reads (global : JSValue) : HitchCall D → Operation (List Bytes)
  | .invoke arguments => mapEach callbackParameter arguments
  | .perform operation => do
      let reply ← operation.program global
      return if operation.givesHitch then reply.hitch.toList else []

theorem readAs_hitchSupply (global : JSValue) (handle : Handler interface World) :
    ReadAs (hitchSupply global handle) undefinedHitch
      fun call : HitchCall D => (call.reads global).run handle := by
  intro call world
  cases call with
  | invoke arguments =>
      simp only [HitchCall.reads]
      rw [funext callbackParameter_eq, mapEach_map, map_eq_pure_bind, run_bind]
      rfl
  | perform operation =>
      have texts : ∀ reply : Reply D, (reply.hitch.toList.map some).map
          (fun text => text.getD undefinedHitch) = reply.hitch.toList := by simp
      simp only [HitchCall.reads, hitchSupply, PublicOperation.hitches, run_bind, pure_eq_done,
        run_done]
      split <;> simp [texts]

/-- No argument of a callback lacks a text at its turn. -/
def HitchCall.HasTexts (handle : Handler interface World) : HitchCall D → World → Prop
  | .invoke arguments, world => ∀ before argument after,
      arguments = before ++ argument :: after → argument.isUndefined = false ∧
        (handle (.jsToCString argument)
          ((mapEach jsValueToHitch before).run handle world).2).1 ≠ none
  | .perform _, _ => True

theorem run_jsValueToHitch_ne_none_iff (handle : Handler interface World) (value : JSValue)
    (world : World) :
    ((jsValueToHitch value).run handle world).1 ≠ none ↔
      value.isUndefined = false ∧ (handle (.jsToCString value) world).1 ≠ none := by
  unfold jsValueToHitch
  cases isUndefined : value.isUndefined with
  | true => simp
  | false =>
      simp only [hitchOfCString, jsToCString, Bool.false_eq_true, if_false, call_bind, done_bind,
        run_call, true_and]
      cases (handle (.jsToCString value) world).1 with
      | none => simp
      | some utf8 => simp [jsFreeCString]

/-- Operations give objects of their own. -/
theorem complete_iff_hasTexts (global : JSValue) (handle : Handler interface World)
    (call : HitchCall D) (world : World) :
    Complete (hitchSupply global handle) call world ↔ call.HasTexts handle world := by
  cases call with
  | invoke arguments =>
      rw [Complete, ← List.forall_mem_ne']
      exact (forall_mem_run_mapEach handle jsValueToHitch (· ≠ none) arguments world).trans
        (by simp only [run_jsValueToHitch_ne_none_iff, HitchCall.HasTexts])
  | perform operation =>
      simp only [Complete, hitchSupply, PublicOperation.hitches, run_bind, pure_eq_done, run_done,
        HitchCall.HasTexts]
      split <;> simp

end QuickJS

/-! ## JavaScriptCore -/

namespace JSC

variable {D World : Type}

inductive HitchCall (D : Type)
  | invoke (arguments : List JSValueRef)
  | perform (operation : PublicOperation D)

/-- `JSStringToHitch`, or `none` for the constant. -/
def jsStringText : Option JSStringRef → Operation (Option Bytes)
  | none => return none
  | some string => some <$> jsStringToHitch (some string)

/-- `JSValueToHitch`, with `some none` for the constant. -/
def jsValueText (context : JSGlobalContextRef) :
    Option JSValueRef → Operation (Option (Option Bytes))
  | none => return none
  | some value => do
      let string ← jsValueToStringCopy context value
      let result ← jsStringText string
      jsStringRelease string
      return some result

/-- The text of an argument of a callback, or the constant. -/
def parameterText (context : JSGlobalContextRef) (argument : JSValueRef) :
    Operation (Option Bytes) := do
  let text ← jsValueText context (some argument)
  return text.join

def Reply.hitch : Reply D → Option Bytes
  | .text value => value
  | _ => none

/-- The readers that give a `Hitch`. -/
def Reader.givesHitch : Reader D → Bool
  | .hitch => true
  | .json => true
  | _ => false

def PublicOperation.givesHitch : PublicOperation D → Bool
  | .subscript reader _ => reader.givesHitch
  | .call reader _ _ => reader.givesHitch
  | _ => false

/-- The texts of the `Hitch` objects that an operation gives. -/
def PublicOperation.hitches (jib : JibFields) :
    PublicOperation D → Operation (List (Option Bytes))
  | .subscript .hitch exec =>
      Option.toList <$> typedSubscript jib none (jsValueText jib.context) exec
  | .call .hitch function arguments =>
      Option.toList <$> typedCall jib (jsValueText jib.context) function arguments
  | operation => do
      let reply ← operation.program jib
      return if operation.givesHitch then reply.hitch.toList.map some else []

def hitchSupply (jib : JibFields) (handle : Handler interface World) :
    Supply (HitchCall D) World Bytes
  | .invoke arguments, world =>
      (mapEach (parameterText jib.context) arguments).run handle world
  | .perform operation, world => (operation.hitches jib).run handle world

theorem jsStringToHitch_eq (string : Option JSStringRef) :
    jsStringToHitch string = (fun text => text.getD undefinedHitch) <$> jsStringText string := by
  cases string with
  | none => rfl
  | some string => simp [jsStringText]

/-- The reader has text or gives the constant. -/
theorem jsValueToHitch_eq (context : JSGlobalContextRef) (value : Option JSValueRef) :
    jsValueToHitch context value =
      (Option.map fun text => text.getD undefinedHitch) <$> jsValueText context value := by
  cases value with
  | none => rfl
  | some value => simp [jsValueToHitch, jsValueText, jsStringToHitch_eq, map_eq_pure_bind]

theorem callbackParameter_eq (context : JSGlobalContextRef) (argument : JSValueRef) :
    callbackParameter context argument =
      (fun text => text.getD undefinedHitch) <$> parameterText context argument := by
  have joins : ∀ text : Option (Option Bytes),
      (text.map fun text => text.getD undefinedHitch).getD undefinedHitch =
        text.join.getD undefinedHitch := by
    rintro (_ | _ | text) <;> rfl
  simp [callbackParameter, parameterText, jsValueToHitch_eq, map_eq_pure_bind, joins]

theorem map_typedSubscript {α β : Type} (f : α → β) (jib : JibFields) (absent : α)
    (convert : Option JSValueRef → Operation α) (exec : HalfHitch) :
    f <$> typedSubscript jib absent convert exec =
      typedSubscript jib (f absent) (fun value => f <$> convert value) exec := by
  apply congrArg (Program.call _)
  funext released
  cases released with
  | true => rfl
  | false =>
      change f <$> locked _ = locked _
      simp [locked, map_eq_pure_bind]

theorem map_typedCall {α β : Type} (f : α → β) (jib : JibFields)
    (convert : Option JSValueRef → Operation α) (function : JibFunction)
    (arguments : List (Option JibUnknown)) :
    f <$> typedCall jib convert function arguments =
      typedCall jib (fun value => f <$> convert value) function arguments := by
  simp [typedCall, map_eq_pure_bind]

/-- A text that is given reads as the text of the constant where it is that. -/
def readAsText (text : Option Bytes) : Bytes :=
  text.getD undefinedHitch

theorem map_toList_readAsText {program : Operation (Option (Option Bytes))}
    {reads : Operation (Option Bytes)} (same : reads = Option.map readAsText <$> program) :
    List.map readAsText <$> (Option.toList <$> program) = Option.toList <$> reads := by
  have toList : ∀ texts : Option (Option Bytes),
      texts.toList.map readAsText = (texts.map readAsText).toList := by
    rintro (_ | text) <;> rfl
  rw [same]
  simp [map_eq_pure_bind, toList]

/-- The texts that a call hands out as the operations read them. -/
def HitchCall.reads (jib : JibFields) : HitchCall D → Operation (List Bytes)
  | .invoke arguments => mapEach (callbackParameter jib.context) arguments
  | .perform operation => do
      let reply ← operation.program jib
      return if operation.givesHitch then reply.hitch.toList else []

/-- What an operation gives reads as its reply. -/
theorem map_hitches (jib : JibFields) (operation : PublicOperation D) :
    List.map readAsText <$> operation.hitches jib =
      (HitchCall.perform operation).reads jib := by
  have texts : ∀ gives (reply : Reply D),
      (if gives = true then reply.hitch.toList.map some else []).map readAsText =
        if gives = true then reply.hitch.toList else [] := by
    intro gives reply
    split <;> simp [readAsText, Function.comp_def]
  have other : ∀ operation : PublicOperation D,
      List.map readAsText <$> (operation.program jib >>= fun reply =>
        pure (if operation.givesHitch then reply.hitch.toList.map some else [])) =
          (HitchCall.perform operation).reads jib := by
    intro operation
    simp only [HitchCall.reads, map_eq_pure_bind, bind_assoc, pure_bind, texts]
  cases operation with
  | subscript reader exec =>
      cases reader with
      | hitch =>
          have reads : subscriptHitch jib exec = Option.map readAsText <$>
              typedSubscript jib none (jsValueText jib.context) exec := by
            rw [map_typedSubscript, subscriptHitch, funext (jsValueToHitch_eq jib.context)]
            rfl
          refine (map_toList_readAsText reads).trans ?_
          simp [HitchCall.reads, PublicOperation.program, Reader.subscript, Reply.hitch,
            PublicOperation.givesHitch, Reader.givesHitch, map_eq_pure_bind]
      | _ => exact other _
  | call reader function arguments =>
      cases reader with
      | hitch =>
          have reads : callHitch jib function arguments = Option.map readAsText <$>
              typedCall jib (jsValueText jib.context) function arguments := by
            rw [map_typedCall, callHitch, funext (jsValueToHitch_eq jib.context)]
            rfl
          refine (map_toList_readAsText reads).trans ?_
          simp [HitchCall.reads, PublicOperation.program, Reader.call, Reply.hitch,
            PublicOperation.givesHitch, Reader.givesHitch, map_eq_pure_bind]
      | _ => exact other _
  | _ => exact other _

theorem readAs_hitchSupply (jib : JibFields) (handle : Handler interface World) :
    ReadAs (hitchSupply jib handle) undefinedHitch
      fun call : HitchCall D => (call.reads jib).run handle := by
  intro call world
  cases call with
  | invoke arguments =>
      simp only [HitchCall.reads]
      rw [funext (callbackParameter_eq jib.context), mapEach_map, map_eq_pure_bind, run_bind]
      rfl
  | perform operation =>
      simp only [← map_hitches, map_eq_pure_bind, run_bind]
      rfl

/-! ### Which calls have texts -/

/-- The string conversion of a value that is read gives a string. -/
def Converts (context : JSGlobalContextRef) (handle : Handler interface World)
    (value : Option JSValueRef) (world : World) : Prop :=
  ∀ read ∈ value, (handle (.jsValueToStringCopy context read) world).1 ≠ none

/-- The string conversions of the arguments, each at its turn, or of the value
that is read as a `Hitch` give strings. -/
def HitchCall.Converts (jib : JibFields) (handle : Handler interface World) :
    HitchCall D → World → Prop
  | .invoke arguments, world => ∀ before argument after,
      arguments = before ++ argument :: after →
        JSC.Converts jib.context handle (some argument)
          ((mapEach (parameterText jib.context) before).run handle world).2
  | .perform (.subscript .hitch exec), world =>
      (handle .readReleased world).1 = false →
        let found := (resolve jib exec).run handle (handle .readReleased world).2
        JSC.Converts jib.context handle found.1 found.2
  | .perform (.call .hitch function arguments), world =>
      let found := (callJSValue jib function arguments).run handle world
      JSC.Converts jib.context handle found.1 found.2
  | .perform _, _ => True

variable (context : JSGlobalContextRef) (handle : Handler interface World)

theorem run_jsValueText_ne_iff (value : Option JSValueRef) (world : World) :
    ((jsValueText context value).run handle world).1 ≠ some none ↔
      Converts context handle value world := by
  cases value with
  | none => simp [jsValueText, Converts]
  | some value =>
      simp only [jsValueText, jsValueToStringCopy, Converts, call_bind, done_bind, run_call]
      cases isString : (handle (.jsValueToStringCopy context value) world).1 <;>
        simp [jsStringText, isString]

theorem run_parameterText_ne_none_iff (argument : JSValueRef) (world : World) :
    ((parameterText context argument).run handle world).1 ≠ none ↔
      Converts context handle (some argument) world := by
  simp only [parameterText, jsValueText, jsValueToStringCopy, Converts, call_bind, done_bind,
    run_call]
  cases isString : (handle (.jsValueToStringCopy context argument) world).1 <;>
    simp [jsStringText, isString]

/-- Reading is left out once the context has been released. -/
theorem run_typedSubscript_ne_iff (jib : JibFields) (exec : HalfHitch) (world : World) :
    ((typedSubscript jib none (jsValueText jib.context) exec).run handle world).1 ≠ some none ↔
      ((handle .readReleased world).1 = false →
        let found := (resolve jib exec).run handle (handle .readReleased world).2
        Converts jib.context handle found.1 found.2) := by
  simp only [typedSubscript, unlessReleased, readReleased, call_bind, done_bind, run_call]
  cases (handle .readReleased world).1 with
  | true => simp
  | false => simp [run_jsValueText_ne_iff]

theorem complete_iff_converts (jib : JibFields) (call : HitchCall D) (world : World) :
    Complete (hitchSupply jib handle) call world ↔ call.Converts jib handle world := by
  have other : ∀ operation : PublicOperation D, none ∉ ((operation.program jib >>= fun reply =>
      pure (if operation.givesHitch then reply.hitch.toList.map some else [])).run
        handle world).1 := by
    intro operation
    simp only [run_bind, pure_eq_done, run_done]
    split <;> simp
  have single : ∀ text : Option (Option Bytes), none ∉ text.toList ↔ text ≠ some none := by
    rintro (_ | _ | text) <;> simp
  cases call with
  | invoke arguments =>
      rw [Complete, ← List.forall_mem_ne']
      exact (forall_mem_run_mapEach handle (parameterText jib.context) (· ≠ none) arguments
        world).trans (by simp only [run_parameterText_ne_none_iff, HitchCall.Converts])
  | perform operation =>
      cases operation with
      | subscript reader exec =>
          cases reader with
          | hitch =>
              simp only [Complete, hitchSupply, PublicOperation.hitches, map_eq_pure_bind, run_bind,
                pure_eq_done, run_done, single, run_typedSubscript_ne_iff, HitchCall.Converts]
          | _ => exact iff_of_true (other _) trivial
      | call reader function arguments =>
          cases reader with
          | hitch =>
              simp only [Complete, hitchSupply, PublicOperation.hitches, map_eq_pure_bind, run_bind,
                pure_eq_done, run_done, single, typedCall, run_jsValueText_ne_iff,
                HitchCall.Converts]
          | _ => exact iff_of_true (other _) trivial
      | _ => exact iff_of_true (other _) trivial

end JSC

/-! ## Both backends -/

/-- In both backends `undefinedHitch` keeps its text, and objects are not shared,
in runs in which every call had texts for all that it handed out.  The next call
leaves the constant out of the reach of clients exactly when it has them too: in
QuickJS when all arguments have texts, in JavaScriptCore when the engine can
convert what is read. -/
theorem undefinedHitch_keepsConstant {D World : Type} (global : QuickJS.JSValue)
    (handle : Handler QuickJS.interface World) (jib : JSC.JibFields)
    (jscHandle : Handler JSC.interface World) :
    KeepsConstant (QuickJS.hitchSupply (D := D) global handle) QuickJS.undefinedHitch ∧
      KeepsConstant (JSC.hitchSupply (D := D) jib jscHandle) JSC.undefinedHitch ∧
      ReadAs (QuickJS.hitchSupply global handle) QuickJS.undefinedHitch
        (fun call : QuickJS.HitchCall D => (call.reads global).run handle) ∧
      ReadAs (JSC.hitchSupply jib jscHandle) JSC.undefinedHitch
        (fun call : JSC.HitchCall D => (call.reads jib).run jscHandle) ∧
      (∀ (call : QuickJS.HitchCall D) (world : World),
        Complete (QuickJS.hitchSupply global handle) call world ↔ call.HasTexts handle world) ∧
      ∀ (call : JSC.HitchCall D) (world : World),
        Complete (JSC.hitchSupply jib jscHandle) call world ↔
          call.Converts jib jscHandle world := by
  have differs : [] ≠ QuickJS.undefinedHitch := by decide +kernel
  have jscDiffers : [] ≠ JSC.undefinedHitch := by decide +kernel
  exact ⟨keepsConstant _ differs, keepsConstant _ jscDiffers,
    QuickJS.readAs_hitchSupply global handle, JSC.readAs_hitchSupply jib jscHandle,
    QuickJS.complete_iff_hasTexts global handle, JSC.complete_iff_converts jscHandle jib⟩

/-- `"UNDEFINED"`. -/
def uppercased : Bytes := "UNDEFINED".toUTF8.toList

/-- Callbacks of an engine that is only given `undefined`. -/
def undefinedSupply : Supply (QuickJS.HitchCall Unit) Unit Bytes :=
  QuickJS.hitchSupply .undefined fun command state =>
    (QuickJS.constantAnswer .undefined command, state)

/-- A body has been given `undefined` and has changed its argument to upper case. -/
def afterUppercase : State Unit Bytes :=
  ((State.initial () QuickJS.undefinedHitch).hand undefinedSupply
    (.invoke [.undefined])).write 0 uppercased

/-- A body that changes its argument to upper case changes what every later body
is given for `undefined`. -/
theorem uppercase_changes_undefined :
    Reaches undefinedSupply (fun _ _ => True) (State.initial () QuickJS.undefinedHitch)
        afterUppercase ∧
      ¬ afterUppercase.Intact QuickJS.undefinedHitch ∧
      (afterUppercase.hand undefinedSupply (.invoke [.undefined])).given = [[0], [0]] ∧
      (afterUppercase.hand undefinedSupply (.invoke [.undefined])).content 0 = uppercased := by
  have written : afterUppercase.content 0 = uppercased := by
    simp [afterUppercase, State.write]
  refine ⟨?_, ?_, rfl, written⟩
  · exact (Reaches.start.call (QuickJS.HitchCall.invoke [.undefined]) trivial).write
      ⟨[0], List.mem_cons_self, List.mem_cons_self⟩ uppercased
  · rintro ⟨constant, _⟩
    rw [written] at constant
    exact absurd constant (by decide +kernel)

end Jib
