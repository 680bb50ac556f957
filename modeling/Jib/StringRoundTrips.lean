import Jib.QuickJSStrings
import Jib.ValueReadings

/-!
# Strings that are passed and read back

QuickJS is given a string with its length and gives it back as a C string;
JavaScriptCore is given a C string.  A NUL inside cuts the string off in both.
-/

namespace Jib

open CommandProgram Program UnicodeText

/-- The Swift strings that can be passed.  A `Hitch` and a `HalfHitch` may have
no memory, and may be followed by something else than a NUL. -/
inductive StringSource
  | string (bytes : Bytes)
  | staticString (bytes : Bytes)
  | hitch (storage : Hitch)
  | halfHitch (slice : HalfHitch)

namespace StringSource

def bytes : StringSource → Bytes
  | .string text => text
  | .staticString text => text
  | .hitch storage => storage.halfhitch.bytes
  | .halfHitch slice => slice.bytes

def quickJS : StringSource → QuickJS.JibUnknown
  | .string text => .string text
  | .staticString text => .staticString text
  | .hitch storage => .hitch storage.halfhitch.bytes
  | .halfHitch slice => .halfHitch slice

def jsc : StringSource → JSC.JibUnknown
  | .string text => .string text
  | .staticString text => .staticString text
  | .hitch storage => .hitch storage
  | .halfHitch slice => .halfHitch slice

/-- There is memory behind the string, and a `Hitch` is terminated. -/
def HasMemory : StringSource → Prop
  | .hitch storage => storage.raw.isSome = true ∧ storage.following = 0
  | .halfHitch slice => slice.raw.isSome = true
  | _ => True

end StringSource

/-! ## QuickJS -/

namespace QuickJS

variable {State : Type} {handle : Handler interface State}
  {stringOf : State → JSValue → Option JSString}

/-- The engine keeps the strings it makes.  `stringOf` gives the string behind a
value. -/
structure KeepsStrings (handle : Handler interface State)
    (stringOf : State → JSValue → Option JSString) : Prop where
  makes : ∀ buf string state, newStringLen buf = some string →
    (handle (.jsNewStringLen buf) state).1.isUndefined = false ∧
      stringOf (handle (.jsNewStringLen buf) state).2 (handle (.jsNewStringLen buf) state).1 =
        some string
  tooLong : ∀ buf state, newStringLen buf = none →
    (handle (.jsNewStringLen buf) state).1 = .exception
  toCString : ∀ value string state, stringOf state value = some string →
    (handle (.jsToCString value) state).1 = toCStringLen string
  exceptionText : ∀ state, (handle (.jsToCString .exception) state).1 = none

/-- Read back a string that was just passed. -/
def readBack (source : StringSource) : Operation (Option Bytes) := do
  let value ← source.quickJS.createJibValue
  jsValueToHitch value

theorem createJibValue_eq (source : StringSource) :
    source.quickJS.createJibValue = jsNewStringLen source.bytes := by
  cases source <;> rfl

/-- What is read back is the text of the string up to a NUL. -/
theorem run_readBack (keeps : KeepsStrings handle stringOf) (source : StringSource)
    (state : State) :
    ((readBack source).run handle state).1 =
      ((newStringLen source.bytes).bind toCStringLen).map cString := by
  rw [readBack, createJibValue_eq]
  simp only [jsNewStringLen, call_bind, done_bind, run_call, jsValueToHitch]
  cases made : newStringLen source.bytes with
  | none =>
      rw [keeps.tooLong _ state made]
      simp [JSValue.isUndefined, run_hitchOfCString, keeps.exceptionText]
  | some string =>
      obtain ⟨isDefined, isString⟩ := keeps.makes _ string state made
      simp only [isDefined, Bool.false_eq_true, if_false, run_hitchOfCString,
        keeps.toCString _ string _ isString, Option.bind_some]

theorem run_readBack_eq_iff (keeps : KeepsStrings handle stringOf) {source : StringSource}
    {text : List Char} (isText : source.bytes = utf8 text) (state : State) :
    ((readBack source).run handle state).1 = some source.bytes ↔
      0 ∉ source.bytes ∧ Fits text := by
  rw [run_readBack keeps, isText]
  rcases toCStringLen_newStringLen_utf8 text with ⟨fits, whole⟩ | ⟨tooLong, lost⟩
  · rw [whole, Option.map_some, Option.some_inj, cString_eq_self_iff]
    exact (and_iff_left fits).symm
  · rw [lost]
    simp [tooLong]

end QuickJS

/-! ## JavaScriptCore -/

namespace JSC

variable {State : Type} {handle : Handler interface State} {context : JSGlobalContextRef}
  {textOf : State → JSValueRef → Option Bytes}

/-- The engine makes strings of UTF-8. -/
def MakesStrings (handle : Handler interface State) : Prop :=
  ∀ (text : List Char) state, ∃ pointer,
    (handle (.jsStringCreateWithUTF8CString (utf8 text)) state).1 = some ⟨pointer, utf8 text⟩

/-- The engine makes strings and keeps them.  `textOf` gives the string
conversion of a value. -/
structure KeepsStrings (handle : Handler interface State) (context : JSGlobalContextRef)
    (textOf : State → JSValueRef → Option Bytes) : Prop where
  createString : MakesStrings handle
  makeString : ∀ string state, ∃ value,
    (handle (.jsValueMakeString context string) state).1 = some value ∧
      textOf (handle (.jsValueMakeString context string) state).2 value = some string.text
  makeUndefined : ∀ state,
    textOf (handle (.jsValueMakeUndefined context) state).2
      (handle (.jsValueMakeUndefined context) state).1 = some undefinedHitch
  stringRelease : ∀ string value state,
    textOf (handle (.jsStringRelease string) state).2 value = textOf state value
  toStringCopy : ∀ value state,
    (handle (.jsValueToStringCopy context value) state).1.map JSStringRef.text =
      textOf state value

/-- Read back a string that was just passed. -/
def readBack (jib : JibFields) (source : StringSource) : Operation (Option Bytes) := do
  let value ← source.jsc.createJibValue jib
  jsValueToHitch jib.context value

/-- What `jsString` makes of a string. -/
def sourceString : StringSource → Operation (Option JSStringRef)
  | .string text => createJSString (.ofBytes text)
  | .staticString text => createJSString (.ofBytes text)
  | .hitch storage => hitchJSString storage fun string => return some string
  | .halfHitch slice => createJSString slice

theorem createJibValue_eq (jib : JibFields) (source : StringSource) :
    source.jsc.createJibValue jib =
      sourceString source >>= fun string => some <$> createStringJibValue jib.context string := by
  cases source <;> rfl

theorem sourceString_of_hasMemory {source : StringSource} (hasMemory : source.HasMemory) :
    sourceString source = jsStringCreateWithUTF8CString (cString source.bytes) := by
  have own : ∀ text, createJSString (.ofBytes text) =
      jsStringCreateWithUTF8CString (cString text) := by
    intro text
    rw [createJSString_eq rfl, HalfHitch.bytes_ofBytes]
  cases source with
  | string text => exact own text
  | staticString text => exact own text
  | hitch storage => exact (hitchJSString_eq hasMemory.1 hasMemory.2 _).trans (withJSString_some _)
  | halfHitch slice => exact createJSString_eq hasMemory

theorem sourceString_of_not_hasMemory {source : StringSource} (noMemory : ¬ source.HasMemory) :
    sourceString source = .done none := by
  cases source with
  | string text => exact (noMemory trivial).elim
  | staticString text => exact (noMemory trivial).elim
  | hitch storage =>
      rw [sourceString, hitchJSString]
      split
      · rename_i memory isMemory
        exact if_neg fun terminated => noMemory ⟨by simp [isMemory], terminated⟩
      · rfl
  | halfHitch slice =>
      have isNone : slice.raw = none := by
        simpa [StringSource.HasMemory] using noMemory
      simp [sourceString, createJSString, jsString, isNone]

variable {jib : JibFields}

theorem run_jsValueToHitch_of_textOf (strings : ReadsStrings handle)
    (keeps : KeepsStrings handle jib.context textOf) {value : JSValueRef} {state : State}
    {text : Bytes} (isText : textOf state value = some text) :
    ((jsValueToHitch jib.context (some value)).run handle state).1 = some text := by
  rw [← keeps.toStringCopy] at isText
  simp [jsValueToHitch, run_jsStringToHitch strings, isText]

theorem run_readBack_of_hasMemory (strings : ReadsStrings handle)
    (keeps : KeepsStrings handle jib.context textOf) {source : StringSource} {text : List Char}
    (isText : source.bytes = utf8 text) (hasMemory : source.HasMemory) (state : State) :
    ((readBack jib source).run handle state).1 = some (cString source.bytes) := by
  have cut : cString source.bytes = utf8 (text.takeWhile (·.toNat ≠ 0)) := by
    rw [isText, cString, takeWhile_utf8]
  obtain ⟨pointer, created⟩ := keeps.createString (text.takeWhile (·.toNat ≠ 0)) state
  obtain ⟨value, made, hasText⟩ := keeps.makeString ⟨pointer, cString source.bytes⟩
    (handle (.jsStringCreateWithUTF8CString (cString source.bytes)) state).2
  have read : ∀ state, textOf state value = some (cString source.bytes) →
      ((jsValueToHitch jib.context (some value)).run handle state).1 =
        some (cString source.bytes) :=
    fun state => run_jsValueToHitch_of_textOf strings keeps
  rw [← cut] at created
  rw [readBack, createJibValue_eq, sourceString_of_hasMemory hasMemory]
  simp only [jsStringCreateWithUTF8CString, call_bind, done_bind, map_eq_pure_bind, run_call,
    created, createStringJibValue, jsValueMakeString, jsStringRelease, made, pure_eq_done]
  exact read _ ((keeps.stringRelease _ _ _).trans hasText)

/-- Without memory, the text of `undefined` is read back. -/
theorem run_readBack_of_not_hasMemory (strings : ReadsStrings handle)
    (keeps : KeepsStrings handle jib.context textOf) {source : StringSource}
    (noMemory : ¬ source.HasMemory) (state : State) :
    ((readBack jib source).run handle state).1 = some undefinedHitch := by
  rw [readBack, createJibValue_eq, sourceString_of_not_hasMemory noMemory]
  exact run_jsValueToHitch_of_textOf strings keeps (keeps.makeUndefined state)

/-- A text comes back exactly if it is read and has no NUL; the text of
`undefined` comes back in any case. -/
theorem run_readBack_eq_iff (strings : ReadsStrings handle)
    (keeps : KeepsStrings handle jib.context textOf) {source : StringSource} {text : List Char}
    (isText : source.bytes = utf8 text) (state : State) :
    ((readBack jib source).run handle state).1 = some source.bytes ↔
      0 ∉ source.bytes ∧ (source.HasMemory ∨ source.bytes = undefinedHitch) := by
  have noNul : 0 ∉ undefinedHitch := by decide +kernel
  by_cases hasMemory : source.HasMemory
  · rw [run_readBack_of_hasMemory strings keeps isText hasMemory, Option.some_inj,
      cString_eq_self_iff]
    exact (and_iff_left (Or.inl hasMemory)).symm
  · rw [run_readBack_of_not_hasMemory strings keeps hasMemory, Option.some_inj]
    constructor
    · intro isUndefined
      exact ⟨isUndefined ▸ noNul, Or.inr isUndefined.symm⟩
    · intro survives
      exact (survives.2.resolve_left hasMemory).symm

end JSC

/-! ## Both backends -/

/-- A string survives in both backends exactly if it has no U+0000, is not too
long for QuickJS, and has memory that JavaScriptCore can read. -/
theorem readBack_eq_iff {State JSCState : Type} {handle : Handler QuickJS.interface State}
    {jscHandle : Handler JSC.interface JSCState} {jib : JSC.JibFields}
    {stringOf : State → QuickJS.JSValue → Option QuickJS.JSString}
    {textOf : JSCState → JSC.JSValueRef → Option Bytes}
    (keeps : QuickJS.KeepsStrings handle stringOf) (strings : JSC.ReadsStrings jscHandle)
    (jscKeeps : JSC.KeepsStrings jscHandle jib.context textOf) (source : StringSource)
    (text : List Char) (isText : source.bytes = utf8 text) (state : State)
    (jscState : JSCState) :
    (((QuickJS.readBack source).run handle state).1 = some source.bytes ↔
        '\x00' ∉ text ∧ QuickJS.Fits text) ∧
      (((JSC.readBack jib source).run jscHandle jscState).1 = some source.bytes ↔
        '\x00' ∉ text ∧ (source.HasMemory ∨ source.bytes = JSC.undefinedHitch)) := by
  have noNul : 0 ∉ source.bytes ↔ '\x00' ∉ text := by
    rw [isText, zero_mem_utf8_iff]
  rw [QuickJS.run_readBack_eq_iff keeps isText, JSC.run_readBack_eq_iff strings jscKeeps isText,
    noNul]
  exact ⟨Iff.rfl, Iff.rfl⟩

/-! ## Engines that keep strings -/

/-- An engine whose state is the list of its strings. -/
def QuickJS.stringsHandle : Handler QuickJS.interface (List QuickJS.JSString)
  | .jsNewStringLen buf, strings =>
      match QuickJS.newStringLen buf with
      | some string => (.string strings.length, strings ++ [string])
      | none => (.exception, strings)
  | .jsToCString (.string pointer), strings =>
      ((strings[pointer]?).bind QuickJS.toCStringLen, strings)
  | command, strings => (QuickJS.constantAnswer .undefined command, strings)

def QuickJS.listedString (strings : List QuickJS.JSString) :
    QuickJS.JSValue → Option QuickJS.JSString
  | .string pointer => strings[pointer]?
  | _ => none

theorem QuickJS.keepsStrings_stringsHandle :
    QuickJS.KeepsStrings QuickJS.stringsHandle QuickJS.listedString where
  makes := by
    intro buf string strings made
    simp [QuickJS.stringsHandle, made, QuickJS.JSValue.isUndefined, QuickJS.listedString]
  tooLong := by
    intro buf strings tooLong
    simp [QuickJS.stringsHandle, tooLong]
  toCString := by
    intro value string strings isString
    cases value with
    | string pointer =>
        simp only [QuickJS.listedString] at isString
        simp [QuickJS.stringsHandle, isString]
    | _ => cases isString
  exceptionText := fun _ => rfl

/-- An engine whose state is the list of the texts of its values. -/
def JSC.textsHandle : Handler JSC.interface (List Bytes)
  | .jsValueMakeString _ string, texts => (some texts.length, texts ++ [string.text])
  | .jsValueMakeUndefined _, texts => (texts.length, texts ++ [JSC.undefinedHitch])
  | .jsValueToStringCopy _ value, texts => ((texts[value]?).map (JSC.JSStringRef.mk 0), texts)
  | command, texts => (JSC.emptyAnswer command, texts)

theorem JSC.keepsStrings_textsHandle (context : JSC.JSGlobalContextRef) :
    JSC.KeepsStrings JSC.textsHandle context fun texts value => texts[value]? where
  createString := fun _ _ => ⟨0, rfl⟩
  makeString := fun _ texts => ⟨texts.length, rfl, by simp [JSC.textsHandle]⟩
  makeUndefined := fun _ => by simp [JSC.textsHandle]
  stringRelease := fun _ _ _ => rfl
  toStringCopy := by
    intro value texts
    simp only [JSC.textsHandle]
    cases texts[value]? <;> rfl

theorem JSC.readsStrings_textsHandle : JSC.ReadsStrings JSC.textsHandle where
  maximumSize := fun string _ => Nat.lt_succ_self string.text.length
  getUTF8CString := fun _ _ _ _ => rfl

/-- U+00E9 and U+1F600 as a slice that is followed by `"x"`. -/
def unterminatedSlice : HalfHitch where
  raw := some [0xC3, 0xA9, 0xF0, 0x9F, 0x98, 0x80, 120]
  count := 6
  readable := by simp

theorem readBack_eq_iff_unterminated :
    (((QuickJS.readBack (.halfHitch unterminatedSlice)).run QuickJS.stringsHandle []).1 =
          some unterminatedSlice.bytes ↔
        '\x00' ∉ ['é', '😀'] ∧ QuickJS.Fits ['é', '😀']) ∧
      (((JSC.readBack JSC.someJib (.halfHitch unterminatedSlice)).run JSC.textsHandle []).1 =
          some unterminatedSlice.bytes ↔
        '\x00' ∉ ['é', '😀'] ∧ ((StringSource.halfHitch unterminatedSlice).HasMemory ∨
          unterminatedSlice.bytes = JSC.undefinedHitch)) :=
  readBack_eq_iff QuickJS.keepsStrings_stringsHandle JSC.readsStrings_textsHandle
    (JSC.keepsStrings_textsHandle _) (.halfHitch unterminatedSlice) ['é', '😀'] rfl [] []

/-- Of `"a"`, U+0000 and `"b"` only `"a"` comes back. -/
theorem not_readBack_eq_of_nul :
    ((QuickJS.readBack (.string [97, 0, 98])).run QuickJS.stringsHandle []).1 ≠
        some [97, 0, 98] ∧
      ((JSC.readBack JSC.someJib (.string [97, 0, 98])).run JSC.textsHandle []).1 ≠
        some [97, 0, 98] := by
  decide +kernel

end Jib
