import Jib.JsonGrammar
import Jib.ValueReadings

/-!
# Reading JSON

Both backends read what `JSON.stringify` makes of a value.  JavaScriptCore tells
its three ends apart.  QuickJS looks at the value that is read, and converts
whatever comes out to a string.
-/

namespace Jib

open CommandProgram Program JsonGrammar UnicodeText

/-! ## What is to be read -/

/-- Nothing, or exactly the text of the JSON. -/
def JsonResult.expected : JsonResult → Option Bytes
  | .text plain => some plain.bytes
  | _ => none

/-- The texts of `JSON.stringify` are JSON. -/
def JsonResult.Prescribed : JsonResult → Prop
  | .text plain => JsonText plain.text
  | _ => True

def IsJson (bytes : Bytes) : Prop :=
  ∃ text, bytes = utf8 text ∧ JsonText text

/-- The reader gives what is to be read, and it gives only JSON. -/
def ReadsJson (result : JsonResult) (reply : Option Bytes) : Prop :=
  reply = result.expected ∧ ∀ bytes ∈ reply, IsJson bytes

/-- The JSON has not come out as `undefined` and is not too long for a C string. -/
def JsonResult.IsRead : JsonResult → Prop
  | .threw => True
  | .absent => False
  | .text plain => plain.string.HasRoom

/-- The value is `undefined`, which is not looked at further, or its JSON is read. -/
def Value.JsonIsRead (rules : TextRules) (value : Value) : Prop :=
  value.isUndefined = true ∨ (value.toJson rules).IsRead

/-! ## Both readers -/

/-- UTF-8 tells texts apart. -/
theorem utf8_injective : Function.Injective utf8 := by
  intro text other same
  apply String.ofList_injective
  apply String.toByteArray_inj.mp
  rw [String.toByteArray_ofList, String.toByteArray_ofList]
  exact congrArg List.toByteArray same

theorem readsJson_expected {result : JsonResult} (prescribed : result.Prescribed) :
    ReadsJson result result.expected := by
  refine ⟨rfl, ?_⟩
  intro bytes isRead
  cases result with
  | threw => cases isRead
  | absent => cases isRead
  | text plain =>
      obtain rfl : plain.bytes = bytes := Option.some.inj isRead
      exact ⟨plain.text, rfl, prescribed⟩

/-- A word that begins with `u` is no JSON. -/
theorem not_isJson_undefined : ¬ IsJson undefinedText.bytes := by
  rintro ⟨text, same, isJson⟩
  obtain rfl : text = undefinedText.text := (utf8_injective same).symm
  exact not_jsonText (by decide) (by decide) isJson

theorem not_readsJson_undefined {result : JsonResult} :
    ¬ ReadsJson result (some undefinedText.bytes) := by
  rintro ⟨_, onlyJson⟩
  exact not_isJson_undefined (onlyJson _ rfl)

variable {rules : TextRules} {value : Value}

/-- What QuickJS reads is right where there is JSON and room for it, or where it
did not look for JSON. -/
theorem readsJson_jsonText_iff {result : JsonResult} (prescribed : result.Prescribed) :
    ReadsJson result (QuickJS.jsonText result) ↔ result.IsRead := by
  cases result with
  | threw => exact iff_of_true (readsJson_expected prescribed) trivial
  | absent => exact iff_of_false not_readsJson_undefined id
  | text plain =>
      rw [QuickJS.jsonText, QuickJS.toCStringLen_string]
      by_cases hasRoom : plain.string.HasRoom
      · rw [if_pos hasRoom]
        exact iff_of_true (readsJson_expected prescribed) hasRoom
      · rw [if_neg hasRoom]
        exact iff_of_false (fun reads => by cases reads.1) hasRoom

/-- In QuickJS exactly the JSON of values that have some is read; JavaScriptCore
reads JSON or nothing always. -/
theorem readsJson_iff {State JSCState : Type} {handle : Handler QuickJS.interface State}
    {jscHandle : Handler JSC.interface JSCState} {context : JSC.JSGlobalContextRef}
    {writes : List UInt16 → Bytes} {held : QuickJS.JSValue} {jscHeld : JSC.JSValueRef}
    {state : State} {jscState : JSCState} (prescribed : (value.toJson rules).Prescribed)
    (reads : QuickJS.ReadsValues handle) (holds : QuickJS.Holds handle rules held value state)
    (strings : JSC.ReadsStrings jscHandle)
    (jscHolds : JSC.Holds jscHandle context rules writes jscHeld value jscState) :
    (ReadsJson (value.toJson rules) ((QuickJS.jsValueToJson held).run handle state).1 ↔
        value.JsonIsRead rules) ∧
      ReadsJson (value.toJson rules)
        ((JSC.jsValueToJson context (some jscHeld)).run jscHandle jscState).1 := by
  constructor
  · rw [QuickJS.run_jsValueToJson reads holds, Value.JsonIsRead]
    cases isUndefined : value.isUndefined with
    | true =>
        rw [Value.toJson_of_isUndefined isUndefined]
        exact iff_of_true (readsJson_expected trivial) (.inl rfl)
    | false => simpa using readsJson_jsonText_iff prescribed
  · have expected : JSC.jsonText (value.toJson rules) = (value.toJson rules).expected := by
      cases value.toJson rules <;> rfl
    rw [JSC.run_jsValueToJson strings jscHolds, expected]
    exact readsJson_expected prescribed

theorem readsJson_null :
    (ReadsJson (Value.null.toJson noTexts)
        ((QuickJS.jsValueToJson .null).run (QuickJS.valueHandle noTexts .null) ()).1 ↔
        Value.null.JsonIsRead noTexts) ∧
      ReadsJson (Value.null.toJson noTexts)
        ((JSC.jsValueToJson 0 (some 0)).run (JSC.valueHandle noTexts .null) ()).1 :=
  readsJson_iff (jsonText_of_value .null) (QuickJS.readsValues_valueHandle _ _)
    (QuickJS.holds_valueHandle noTexts .null) (JSC.readsStrings_valueHandle _ _)
    (JSC.holds_valueHandle _ _)

/-- A function, which JSON does without. -/
def someFunction : Value := .object true (some nullText.string) .absent

/-- QuickJS reads the JSON of a function as the word `undefined`. -/
theorem jsValueToJson_function :
    ¬ ReadsJson (someFunction.toJson noTexts)
      ((QuickJS.jsValueToJson (QuickJS.heldOf someFunction)).run
        (QuickJS.valueHandle noTexts someFunction) ()).1 := by
  rw [QuickJS.run_jsValueToJson (QuickJS.readsValues_valueHandle _ _)
    (QuickJS.holds_valueHandle noTexts someFunction)]
  exact not_readsJson_undefined

end Jib
