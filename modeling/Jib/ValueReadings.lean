import Jib.NumberReadings
import Jib.QuickJSStrings
import Jib.SoloRuns

/-!
# Reading JS values in the two backends

What the readers give depends on the kind of a value, on its string conversion
and on what `JSON.stringify` makes of it.  The two backends agree on these, but
not on what a reader gives when there is no text.  A string need not be UTF-16;
it is up to JavaScriptCore how it writes one that is not.
-/

namespace Jib

open BinaryNumbers CommandProgram Program UnicodeText

/-! ## Values -/

/-- A text without a NUL. -/
structure PlainText where
  text : List Char
  noNul : '\x00' ∉ text

namespace PlainText

def bytes (plain : PlainText) : Bytes :=
  utf8 plain.text

/-- The string that QuickJS makes of it, char by char. -/
def string (plain : PlainText) : QuickJS.JSString :=
  (QuickJS.JSString.str8 []).putText plain.text

theorem zero_not_mem_bytes (plain : PlainText) : 0 ∉ plain.bytes :=
  (zero_mem_utf8_iff plain.text).not.mpr plain.noNul

theorem units_string (plain : PlainText) : plain.string.units = utf16 plain.text :=
  QuickJS.JSString.units_putText _ _

end PlainText

/-- `"undefined"`. -/
def undefinedText : PlainText := ⟨"undefined".toList, by decide +kernel⟩

def nullText : PlainText := ⟨"null".toList, by decide +kernel⟩

def booleanText : Bool → PlainText
  | true => ⟨"true".toList, by decide +kernel⟩
  | false => ⟨"false".toList, by decide +kernel⟩

/-- The texts of numbers and of quoted strings, which escape control characters
and lone surrogates. -/
structure TextRules where
  number : Binary64 → PlainText
  quoted : List UInt16 → PlainText

/-- How `JSON.stringify` ends. -/
inductive JsonResult
  | threw
  | absent
  | text (text : PlainText)

/-- A JS value, as far as readers look at it.  A string is given as QuickJS has
it; JavaScriptCore has one of the same chars.  What scripts determine is part of
the value: the string conversion of an object, which may throw, and what
`toJSON` makes of an object or a `BigInt`. -/
inductive Value
  | undefined
  | null
  | boolean (value : Bool)
  | number (value : Binary64)
  | string (chars : QuickJS.JSString)
  | symbol
  | bigInt (digits : PlainText) (asJson : JsonResult)
  | object (callable : Bool) (asText : Option QuickJS.JSString) (asJson : JsonResult)

namespace Value

/-- `ToString`; `none` where it throws. -/
def toText (rules : TextRules) : Value → Option QuickJS.JSString
  | .undefined => some undefinedText.string
  | .null => some nullText.string
  | .boolean value => some (booleanText value).string
  | .number value => some (rules.number value).string
  | .string chars => some chars
  | .symbol => none
  | .bigInt digits _ => some digits.string
  | .object _ asText _ => asText

/-- `JSON.stringify`. -/
def toJson (rules : TextRules) : Value → JsonResult
  | .undefined => .absent
  | .null => .text nullText
  | .boolean value => .text (booleanText value)
  | .number value => .text (if value.isFinite then rules.number value else nullText)
  | .string chars => .text (rules.quoted chars.units)
  | .symbol => .absent
  | .bigInt _ asJson => asJson
  | .object _ _ asJson => asJson

def isUndefined : Value → Bool
  | .undefined => true
  | _ => false

def number? : Value → Option Binary64
  | .number value => some value
  | _ => none

def boolean? : Value → Option Bool
  | .boolean value => some value
  | _ => none

def callable : Value → Bool
  | .object callable _ _ => callable
  | _ => false

/-- JavaScriptCore has it in a cell of the heap. -/
def isCell : Value → Bool
  | .string _ => true
  | .symbol => true
  | .bigInt _ _ => true
  | .object _ _ _ => true
  | _ => false

end Value

/-- The readers.  `decode` is `JSONDecoder().decode` at the type asked for. -/
inductive ValueReader (D : Type)
  | hitch
  | json
  | double
  | int
  | bool
  | function
  | decodable (decode : Bytes → Option D)

/-- What readers give.  Of a function it matters whether it is the one that was
read. -/
inductive SwiftValue (D : Type)
  | hitch (text : Bytes)
  | double (value : Binary64)
  | int (value : Int)
  | bool (value : Bool)
  | function (same : Bool)
  | decoded (value : D)

variable {D : Type}

/-! ## QuickJS -/

namespace QuickJS

/-- The tag and payload of a value. -/
def JSValue.Represents : JSValue → Value → Prop
  | .undefined, .undefined => True
  | .null, .null => True
  | .bool value, .boolean other => value = other
  | .int value, .number number => (JSValue.int value).Denotes number
  | .float64 value, .number number => (JSValue.float64 value).Denotes number
  | .string _, .string _ => True
  | .symbol _, .symbol => True
  | .bigInt _, .bigInt _ _ => True
  | .object _, .object _ _ _ => True
  | _, _ => False

variable {State : Type}

/-- Engine functions of readers that do not depend on the value. -/
structure ReadsValues (handle : Handler interface State) : Prop where
  numbers : ReadsNumbers handle
  exceptionText : ∀ state, (handle (.jsToCString .exception) state).1 = none
  undefinedText : ∀ state,
    (handle (.jsToCString .undefined) state).1 = some undefinedText.bytes
  dupValue : ∀ value state, (handle (.jsDupValue value) state).1 = value

/-- What `JS_JSONStringify` returns. -/
def HoldsJson (handle : Handler interface State) (json : JSValue) (state : State) :
    JsonResult → Prop
  | .threw => json = .exception
  | .absent => json = .undefined
  | .text text => (handle (.jsToCString json) state).1 = toCStringLen text.string

/-- In a state, the engine holds this value. -/
structure Holds (handle : Handler interface State) (rules : TextRules) (held : JSValue)
    (value : Value) (state : State) : Prop where
  represents : held.Represents value
  toText : (handle (.jsToCString held) state).1 = (value.toText rules).bind toCStringLen
  toJson : HoldsJson handle (handle (.jsJSONStringify held .undefined .undefined) state).1
    (handle (.jsJSONStringify held .undefined .undefined) state).2 (value.toJson rules)
  isFunction : (handle (.jsIsFunction held) state).1 = value.callable

/-- The readers of the QuickJS backend. -/
def readAs (held : JSValue) : ValueReader D → Operation (Option (SwiftValue D))
  | .hitch => return (← jsValueToHitch held).map .hitch
  | .json => return (← jsValueToJson held).map .hitch
  | .double => return (← jsValueToDouble held).map .double
  | .int => return (← jsValueToInt held).map .int
  | .bool => return (← jsValueToBool held).map .bool
  | .function =>
      return (← jsValueToFunction held).map fun function =>
        .function (function.functionValueRef == held)
  | .decodable decode => return (← jsValueToDecodable decode held).map .decoded

/-- The text of the value that `JS_JSONStringify` returns. -/
def jsonText : JsonResult → Option Bytes
  | .threw => none
  | .absent => some Jib.undefinedText.bytes
  | .text text => toCStringLen text.string

/-- What the readers give: no text where the conversion throws or there is no
room for it, and else the text up to a NUL. -/
def reading (rules : TextRules) (value : Value) : ValueReader D → Option (SwiftValue D)
  | .hitch =>
      if value.isUndefined then none
      else ((value.toText rules).bind toCStringLen).map fun text => .hitch (cString text)
  | .json =>
      if value.isUndefined then none
      else (jsonText (value.toJson rules)).map .hitch
  | .double => value.number?.map .double
  | .int => value.number?.map fun number => .int (int64OfDouble number)
  | .bool => value.boolean?.map .bool
  | .function => if value.callable then some (.function true) else none
  | .decodable decode =>
      if value.isUndefined then none
      else ((jsonText (value.toJson rules)).bind decode).map .decoded

section

variable {handle : Handler interface State} {rules : TextRules} {held : JSValue}
  {value : Value} {state : State}

theorem isUndefined_of_represents (represents : held.Represents value) :
    held.isUndefined = value.isUndefined := by
  cases held <;> cases value <;> first | rfl | exact represents.elim

theorem isNumber_of_represents (represents : held.Represents value) :
    held.isNumber = value.number?.isSome := by
  cases held <;> cases value <;> first | rfl | exact represents.elim

theorem isBool_of_represents (represents : held.Represents value) :
    held.isBool = value.boolean?.isSome := by
  cases held <;> cases value <;> first | rfl | exact represents.elim

theorem denotes_of_represents {number : Binary64}
    (represents : held.Represents (.number number)) : held.Denotes number := by
  cases held <;> exact represents

theorem eq_of_represents {boolean : Bool} (represents : held.Represents (.boolean boolean)) :
    held = .bool boolean := by
  cases held <;> first | exact congrArg _ represents | exact represents.elim

theorem toInt64_of_denotes {number : Binary64} (denotes : held.Denotes number) :
    held.toInt64 = int64OfDouble number := by
  cases held with
  | int integer =>
      obtain ⟨⟨low, high⟩, rfl⟩ := denotes
      have whole : intOf (.ofInt integer) = some integer :=
        intOf_eq_some_iff.mpr ⟨Binary64.truncated_ofInt (by omega), by omega, by omega⟩
      exact (int64OfDouble_of_intOf whole).symm
  | float64 double =>
      obtain rfl : number = double := denotes
      rfl
  | _ => exact denotes.elim

theorem run_hitchOfCString (held : JSValue) (state : State) :
    ((hitchOfCString held).run handle state).1 =
      (handle (.jsToCString held) state).1.map cString := by
  simp only [hitchOfCString, jsToCString, call_bind, done_bind, run_call]
  cases (handle (.jsToCString held) state).1 with
  | none => rfl
  | some utf8 => rfl

/-- `JS_ToCStringLen2` gives a text that it has room for. -/
theorem toCStringLen_string (plain : PlainText) :
    toCStringLen plain.string = if plain.string.HasRoom then some plain.bytes else none := by
  by_cases hasRoom : plain.string.HasRoom
  · rw [if_pos hasRoom, toCStringLen_eq hasRoom, plain.units_string, utf16ToUtf8_utf16]
    rfl
  · rw [if_neg hasRoom, toCStringLen_of_not_hasRoom hasRoom]

/-- The texts of JSON are read to their ends. -/
theorem map_cString_jsonText (result : JsonResult) :
    (jsonText result).map cString = jsonText result := by
  cases result with
  | threw => rfl
  | absent => simp [jsonText, cString_of_noNul undefinedText.zero_not_mem_bytes]
  | text text =>
      rw [jsonText, toCStringLen_string]
      split
      · exact congrArg some (cString_of_noNul text.zero_not_mem_bytes)
      · rfl

theorem toCString_of_holdsJson (reads : ReadsValues handle) {json : JSValue}
    {result : JsonResult} (holds : HoldsJson handle json state result) :
    (handle (.jsToCString json) state).1 = jsonText result := by
  cases result with
  | threw =>
      obtain rfl : json = .exception := holds
      exact reads.exceptionText state
  | absent =>
      obtain rfl : json = .undefined := holds
      exact reads.undefinedText state
  | text text => exact holds

theorem run_jsValueToHitch (holds : Holds handle rules held value state) :
    ((jsValueToHitch held).run handle state).1 =
      if value.isUndefined then none
      else ((value.toText rules).bind toCStringLen).map cString := by
  rw [jsValueToHitch, isUndefined_of_represents holds.represents]
  cases value.isUndefined with
  | true => rfl
  | false => exact (run_hitchOfCString held state).trans (by rw [holds.toText]; rfl)

variable (reads : ReadsValues handle) (holds : Holds handle rules held value state)
include reads holds

theorem run_jsValueToJson : ((jsValueToJson held).run handle state).1 =
    if value.isUndefined then none else jsonText (value.toJson rules) := by
  rw [jsValueToJson, isUndefined_of_represents holds.represents]
  cases value.isUndefined with
  | true => rfl
  | false =>
      simp only [jsJSONStringify, call_bind, done_bind, run_call, run_bind, jsFreeValue, run_done,
        pure_eq_done, run_hitchOfCString, toCString_of_holdsJson reads holds.toJson,
        map_cString_jsonText, Bool.false_eq_true, if_false]

theorem run_jsValueToDouble_holds :
    ((jsValueToDouble held).run handle state).1 = value.number? := by
  rw [jsValueToDouble, isUndefined_of_represents holds.represents,
    isNumber_of_represents holds.represents]
  cases value with
  | number number =>
      have denotes := denotes_of_represents holds.represents
      simp [Value.isUndefined, Value.number?, reads.numbers.toFloat64, toFloat64_of_denotes denotes]
  | _ => rfl

theorem run_jsValueToInt_holds : ((jsValueToInt held).run handle state).1 =
    value.number?.map int64OfDouble := by
  rw [jsValueToInt, isUndefined_of_represents holds.represents,
    isNumber_of_represents holds.represents]
  cases value with
  | number number =>
      have denotes := denotes_of_represents holds.represents
      simp [Value.isUndefined, Value.number?, reads.numbers.toInt64, toInt64_of_denotes denotes]
  | _ => rfl

theorem run_jsValueToBool_holds :
    ((jsValueToBool held).run handle state).1 = value.boolean? := by
  rw [jsValueToBool, isUndefined_of_represents holds.represents,
    isBool_of_represents holds.represents]
  cases value with
  | boolean boolean =>
      obtain rfl := eq_of_represents holds.represents
      simp [Value.isUndefined, Value.boolean?, reads.numbers.toBool]
  | _ => rfl

theorem run_jsValueToFunction_holds : ((jsValueToFunction held).run handle state).1 =
    if value.callable then some ⟨held, none⟩ else none := by
  rw [jsValueToFunction, isUndefined_of_represents holds.represents]
  have isFunction := holds.isFunction
  cases value with
  | undefined => rfl
  | object callable asText asJson =>
      cases callable <;>
        simp [Value.isUndefined, Value.callable, isFunction, reads.dupValue]
  | _ => simp [Value.isUndefined, Value.callable, isFunction]

theorem run_jsValueToDecodable (decode : Bytes → Option D) :
    ((jsValueToDecodable decode held).run handle state).1 =
      if value.isUndefined then none else (jsonText (value.toJson rules)).bind decode := by
  rw [jsValueToDecodable, isUndefined_of_represents holds.represents]
  cases isUndefined : value.isUndefined with
  | true => rfl
  | false =>
      simp only [run_bind, run_jsValueToJson reads holds, isUndefined, Bool.false_eq_true,
        if_false]
      cases jsonText (value.toJson rules) <;> rfl

theorem run_readAs (reader : ValueReader D) :
    ((readAs held reader).run handle state).1 = reading rules value reader := by
  cases reader with
  | hitch =>
      simp only [readAs, run_bind, run_jsValueToHitch holds, pure_eq_done, run_done, reading]
      cases value.isUndefined <;> simp [Function.comp_def]
  | json =>
      simp only [readAs, run_bind, run_jsValueToJson reads holds, pure_eq_done, run_done, reading]
      cases value.isUndefined <;> rfl
  | double => simp [readAs, run_jsValueToDouble_holds reads holds, reading]
  | int => simp [readAs, run_jsValueToInt_holds reads holds, reading, Function.comp_def]
  | bool => simp [readAs, run_jsValueToBool_holds reads holds, reading]
  | function =>
      simp only [readAs, run_bind, run_jsValueToFunction_holds reads holds, pure_eq_done, run_done,
        reading]
      cases value.callable <;> simp
  | decodable decode =>
      simp only [readAs, run_bind, run_jsValueToDecodable reads holds, pure_eq_done, run_done,
        reading]
      cases value.isUndefined <;> rfl

end

end QuickJS

/-! ## JavaScriptCore -/

namespace JSC

variable {State : Type}

/-- The engine gives the texts of its strings to who has room for them. -/
structure ReadsStrings (handle : Handler interface State) : Prop where
  maximumSize : ∀ string state,
    string.text.length < (handle (.jsStringGetMaximumUTF8CStringSize string) state).1
  getUTF8CString : ∀ string size state, string.text.length < size →
    (handle (.jsStringGetUTF8CString string size) state).1 = string.text ++ [0]

/-- The text that JSON has for a value. -/
def jsonText : JsonResult → Option Bytes
  | .text text => some text.bytes
  | _ => none

/-- What the engine writes of a string in UTF-8, by the chars of the string; it is
the UTF-8 of a string that is UTF-16. -/
def WritesTexts (writes : List UInt16 → Bytes) : Prop :=
  ∀ text, writes (utf16 text) = utf8 text

/-- In a state, the engine holds this value.  `NULL` stands for a conversion
that throws, and for a value that JSON does without.  What `JSObjectIsFunction`
makes of a value that is no cell is not known. -/
structure Holds (handle : Handler interface State) (context : JSGlobalContextRef)
    (rules : TextRules) (writes : List UInt16 → Bytes) (held : JSValueRef) (value : Value)
    (state : State) : Prop where
  isUndefined : handle (.jsValueIsUndefined context held) state = (value.isUndefined, state)
  isNumber : handle (.jsValueIsNumber context held) state = (value.number?.isSome, state)
  isBoolean : handle (.jsValueIsBoolean context held) state = (value.boolean?.isSome, state)
  isFunction : value.isCell = true →
    (handle (.jsObjectIsFunction context held) state).1 = value.callable
  toNumber : ∀ number, value = .number number →
    (handle (.jsValueToNumber context held) state).1 = number
  toBoolean : ∀ boolean, value = .boolean boolean →
    (handle (.jsValueToBoolean context held) state).1 = boolean
  toText : (handle (.jsValueToStringCopy context held) state).1.map JSStringRef.text =
    (value.toText rules).map fun string => writes string.units
  toJson : (handle (.jsValueCreateJSONString context held) state).1.map JSStringRef.text =
    jsonText (value.toJson rules)

/-- The readers of the JavaScriptCore backend. -/
def readAs (context : JSGlobalContextRef) (held : JSValueRef) :
    ValueReader D → Operation (Except Trap (Option (SwiftValue D)))
  | .hitch => return .ok ((← jsValueToHitch context (some held)).map .hitch)
  | .json => return .ok ((← jsValueToJson context (some held)).map .hitch)
  | .double => return .ok ((← jsValueToDouble context (some held)).map .double)
  | .int => return (← jsValueToInt context (some held)).map fun value => value.map .int
  | .bool => return .ok ((← jsValueToBool context (some held)).map .bool)
  | .function =>
      return .ok ((← jsValueToFunction context (some held)).map fun function =>
        .function (function.objectRef == some held))
  | .decodable decode =>
      return .ok ((← jsValueToDecodable context decode (some held)).map .decoded)

/-- `JSObjectIsFunction` reads the cell of the object that it is given; the process
aborts if there is none. -/
def AsksCells (isCell : State → JSValueRef → Bool) (state : State) : Command → Prop
  | .jsObjectIsFunction _ object => isCell state object = true
  | _ => True

/-- The reader does not ask whether a value without a cell is a function. -/
def MayRead (value : Value) : ValueReader D → Prop
  | .function => value.isUndefined = true ∨ value.isCell = true
  | _ => True

/-- What the readers give: `"undefined"` where there is no text. -/
def reading (rules : TextRules) (writes : List UInt16 → Bytes) (value : Value) :
    ValueReader D → Except Trap (Option (SwiftValue D))
  | .hitch =>
      .ok (some (.hitch (((value.toText rules).map fun string =>
        writes string.units).getD undefinedHitch)))
  | .json => .ok ((jsonText (value.toJson rules)).map .hitch)
  | .double => .ok (value.number?.map .double)
  | .int =>
      match value.number? with
      | some number => (intOfDouble number).map fun integer => some (.int integer)
      | none => .ok none
  | .bool => .ok (value.boolean?.map .bool)
  | .function => .ok (if value.callable then some (.function true) else none)
  | .decodable decode =>
      .ok (((jsonText (value.toJson rules)).bind decode).map .decoded)

variable {handle : Handler interface State} {context : JSGlobalContextRef}
  {rules : TextRules} {writes : List UInt16 → Bytes} {held : JSValueRef} {value : Value}
  {state : State}

theorem run_jsStringToHitch (strings : ReadsStrings handle) (string : Option JSStringRef)
    (state : State) :
    ((jsStringToHitch string).run handle state).1 =
      (string.map JSStringRef.text).getD undefinedHitch := by
  cases string with
  | none => rfl
  | some string =>
      have isWhole := strings.getUTF8CString string _
        (handle (.jsStringGetMaximumUTF8CStringSize string) state).2
        (strings.maximumSize string state)
      simp [jsStringToHitch, isWhole]

section

variable (strings : ReadsStrings handle)
  (holds : Holds handle context rules writes held value state)
include strings holds

theorem run_jsValueToHitch : ((jsValueToHitch context (some held)).run handle state).1 =
    some (((value.toText rules).map fun string => writes string.units).getD
      undefinedHitch) := by
  rw [← holds.toText]
  simp [jsValueToHitch, run_jsStringToHitch strings]

theorem run_jsValueToJson : ((jsValueToJson context (some held)).run handle state).1 =
    jsonText (value.toJson rules) := by
  rw [← holds.toJson]
  simp only [jsValueToJson, jsValueCreateJSONString, call_bind, done_bind, run_call]
  cases (handle (.jsValueCreateJSONString context held) state).1 with
  | none => rfl
  | some string => simp [run_jsStringToHitch strings]

theorem run_jsValueToDecodable (decode : Bytes → Option D) :
    ((jsValueToDecodable context decode (some held)).run handle state).1 =
      (jsonText (value.toJson rules)).bind decode := by
  have isJson := run_jsValueToJson strings holds
  simp only [jsValueToDecodable, jsValueIsUndefined, call_bind, done_bind, run_call,
    holds.isUndefined]
  cases isUndefined : value.isUndefined with
  | true =>
      cases value with
      | undefined => rfl
      | _ => cases isUndefined
  | false =>
      simp only [Bool.false_eq_true, if_false, run_bind, isJson]
      cases jsonText (value.toJson rules) <;> rfl

omit strings in
theorem run_jsValueToDouble :
    ((jsValueToDouble context (some held)).run handle state).1 = value.number? := by
  have toNumber := holds.toNumber
  cases value with
  | number number =>
      simp [jsValueToDouble, holds.isUndefined, holds.isNumber, toNumber number rfl,
        Value.isUndefined, Value.number?]
  | _ => simp [jsValueToDouble, holds.isUndefined, holds.isNumber, Value.isUndefined,
      Value.number?]

omit strings in
theorem run_jsValueToInt_holds : ((jsValueToInt context (some held)).run handle state).1 =
    match value.number? with
    | some number => (intOfDouble number).map some
    | none => .ok none := by
  have toNumber := holds.toNumber
  cases value with
  | number number =>
      simp [jsValueToInt, holds.isUndefined, holds.isNumber, toNumber number rfl,
        Value.isUndefined, Value.number?]
  | _ => simp [jsValueToInt, holds.isUndefined, holds.isNumber, Value.isUndefined,
      Value.number?]

omit strings in
theorem run_jsValueToBool :
    ((jsValueToBool context (some held)).run handle state).1 = value.boolean? := by
  have toBoolean := holds.toBoolean
  cases value with
  | boolean boolean =>
      simp [jsValueToBool, holds.isUndefined, holds.isBoolean, toBoolean boolean rfl,
        Value.isUndefined, Value.boolean?]
  | _ => simp [jsValueToBool, holds.isUndefined, holds.isBoolean, Value.isUndefined,
      Value.boolean?]

omit strings in
/-- A function that is read is the one that was given. -/
theorem run_jsValueToFunction (may : value.isUndefined = true ∨ value.isCell = true) :
    (((jsValueToFunction context (some held)).run handle state).1.map
      fun function => function.objectRef == some held) =
        if value.callable then some true else none := by
  have isUndefined := holds.isUndefined
  rcases may with isNothing | isCell
  · have notCallable : value.callable = false := by
      cases value with
      | undefined => rfl
      | _ => cases isNothing
    simp [jsValueToFunction, isUndefined, isNothing, notCallable]
  · have isFunction := holds.isFunction isCell
    have isThere : value.isUndefined = false := by
      cases value with
      | undefined => cases isCell
      | _ => rfl
    cases callable : value.callable <;>
      simp [jsValueToFunction, jibFunctionOfObject, isUndefined, isThere, isFunction, callable]

theorem run_readAs (reader : ValueReader D) (may : MayRead value reader) :
    ((readAs context held reader).run handle state).1 = reading rules writes value reader := by
  cases reader with
  | hitch => simp [readAs, run_jsValueToHitch strings holds, reading]
  | json => simp [readAs, run_jsValueToJson strings holds, reading]
  | double => simp [readAs, run_jsValueToDouble holds, reading]
  | int =>
      simp only [readAs, run_bind, run_jsValueToInt_holds holds, pure_eq_done, run_done, reading]
      cases value.number? with
      | none => rfl
      | some number =>
          dsimp only
          cases intOfDouble number <;> rfl
  | bool => simp [readAs, run_jsValueToBool holds, reading]
  | function =>
      have wraps := congrArg (Option.map (SwiftValue.function : Bool → SwiftValue D))
        (run_jsValueToFunction holds may)
      rw [Option.map_map] at wraps
      simp only [readAs, run_bind, pure_eq_done, run_done, reading]
      refine congrArg Except.ok (wraps.trans ?_)
      cases value.callable <;> rfl
  | decodable decode => simp [readAs, run_jsValueToDecodable strings holds, reading]

omit strings holds in
theorem always_jsStringToHitch (isCell : State → JSValueRef → Bool)
    (string : Option JSStringRef) (state : State) :
    (jsStringToHitch string).Always handle (AsksCells isCell) state := by
  cases string <;> simp [jsStringToHitch, AsksCells]

omit strings holds in
theorem always_jsValueToJson (isCell : State → JSValueRef → Bool) (state : State) :
    (jsValueToJson context (some held)).Always handle (AsksCells isCell) state := by
  simp only [jsValueToJson, jsValueCreateJSONString, call_bind, done_bind, always_call]
  refine ⟨trivial, ?_⟩
  split <;> simp [AsksCells, always_jsStringToHitch]

omit strings in
/-- The reader of functions asks about every value that is not `undefined`. -/
theorem always_readAs_iff {isCell : State → JSValueRef → Bool}
    (cells : isCell state held = value.isCell) (reader : ValueReader D) :
    (readAs context held reader).Always handle (AsksCells isCell) state ↔
      MayRead value reader := by
  have isUndefined := holds.isUndefined
  cases reader with
  | hitch =>
      simp [readAs, jsValueToHitch, MayRead, AsksCells, always_jsStringToHitch]
  | json => simp [readAs, MayRead, always_jsValueToJson]
  | decodable decode =>
      simp only [readAs, jsValueToDecodable, jsValueIsUndefined, call_bind, done_bind,
        always_call, always_bind, pure_eq_done, always_done, AsksCells, MayRead, iff_true,
        and_true, true_and]
      split
      · trivial
      · refine (always_bind _ _ _).mpr ⟨always_jsValueToJson isCell _, ?_⟩
        split <;> trivial
  | double =>
      cases isThere : value.isUndefined <;> cases isOf : value.number?.isSome <;>
        simp [readAs, jsValueToDouble, MayRead, isUndefined, holds.isNumber, isThere, isOf,
          AsksCells]
  | int =>
      cases isThere : value.isUndefined <;> cases isOf : value.number?.isSome <;>
        simp [readAs, jsValueToInt, MayRead, isUndefined, holds.isNumber, isThere, isOf, AsksCells]
  | bool =>
      cases isThere : value.isUndefined <;> cases isOf : value.boolean?.isSome <;>
        simp [readAs, jsValueToBool, MayRead, isUndefined, holds.isBoolean, isThere, isOf,
          AsksCells]
  | function =>
      cases isThere : value.isUndefined with
      | true => simp [readAs, jsValueToFunction, isUndefined, isThere, AsksCells, MayRead]
      | false =>
          simp only [readAs, jsValueToFunction, always_bind, jsValueIsUndefined,
            jsObjectIsFunction, call_bind, done_bind, always_call, isUndefined, isThere,
            Bool.false_eq_true, if_false, MayRead, false_or, AsksCells, cells, true_and]
          split <;> simp [jibFunctionOfObject, AsksCells]

end

end JSC

/-! ## Both backends -/

/-- Both engines write a string alike, and without a NUL.  For one that has a
lone surrogate this is up to the engines. -/
def WrittenAlike (writes : List UInt16 → Bytes) (units : List UInt16) : Prop :=
  (∃ text, units = utf16 text ∧ '\x00' ∉ text) ∨
    (∀ text, units ≠ utf16 text) ∧ writes units = cString (QuickJS.utf16ToUtf8 units)

/-- JSON is there or has thrown; else `nothing` is made of the text that one
backend has. -/
def JsonResult.ReadAlike (nothing : Bytes → Prop) : JsonResult → Prop
  | .threw => True
  | .absent => nothing undefinedText.bytes
  | .text plain => plain.string.HasRoom ∨ nothing plain.bytes

/-- The readers of both backends make the same of a value. -/
def Value.ReadAlike (rules : TextRules) (writes : List UInt16 → Bytes) (value : Value) :
    ValueReader D → Prop
  | .hitch => value.isUndefined = false ∧ ∃ string, value.toText rules = some string ∧
      string.HasRoom ∧ WrittenAlike writes string.units
  | .json => value.isUndefined = true ∨ (value.toJson rules).ReadAlike fun _ => False
  | .decodable decode =>
      value.isUndefined = true ∨ (value.toJson rules).ReadAlike fun text => decode text = none
  | .int => ∀ number ∈ value.number?, intOf number ≠ none
  | .function => value.isUndefined = true ∨ value.isCell = true
  | _ => True

/-- Only `undefined` counts as `undefined`, and JSON does without it. -/
theorem Value.toJson_of_isUndefined {rules : TextRules} {value : Value}
    (isUndefined : value.isUndefined = true) : value.toJson rules = .absent := by
  cases value with
  | undefined => rfl
  | _ => cases isUndefined

section

variable {writes : List UInt16 → Bytes} (rules : TextRules) (value : Value)

/-- A text is written whole, and read back up to a NUL. -/
theorem writtenAlike_iff (wellWritten : JSC.WritesTexts writes) (units : List UInt16) :
    WrittenAlike writes units ↔ writes units = cString (QuickJS.utf16ToUtf8 units) := by
  by_cases isText : ∃ text, units = utf16 text
  · obtain ⟨text, rfl⟩ := isText
    rw [wellWritten, QuickJS.utf16ToUtf8_utf16, eq_comm, cString_eq_self_iff, zero_mem_utf8_iff]
    constructor
    · rintro (⟨other, same, noNul⟩ | ⟨noText, _⟩)
      · have sameBytes : utf8 text = utf8 other := by
          rw [← QuickJS.utf16ToUtf8_utf16, same, QuickJS.utf16ToUtf8_utf16]
        rwa [← zero_mem_utf8_iff, sameBytes, zero_mem_utf8_iff]
      · exact absurd rfl (noText text)
    · exact fun noNul => Or.inl ⟨text, rfl, noNul⟩
  · have noText : ∀ text, units ≠ utf16 text := fun text same => isText ⟨text, same⟩
    constructor
    · rintro (⟨text, same, _⟩ | ⟨_, written⟩)
      · exact absurd same (noText text)
      · exact written
    · exact fun written => Or.inr ⟨noText, written⟩

theorem reading_hitch_eq_iff (wellWritten : JSC.WritesTexts writes) :
    JSC.reading (D := D) rules writes value .hitch =
        .ok (QuickJS.reading rules value .hitch) ↔
      value.ReadAlike (D := D) rules writes .hitch := by
  unfold JSC.reading QuickJS.reading Value.ReadAlike
  cases value.isUndefined with
  | true => simp
  | false =>
      cases value.toText rules with
      | none => simp
      | some string =>
          by_cases hasRoom : string.HasRoom
          · simp [QuickJS.toCStringLen_eq hasRoom, hasRoom, writtenAlike_iff wellWritten]
          · simp [QuickJS.toCStringLen_of_not_hasRoom hasRoom, hasRoom]

theorem reading_json_eq_iff :
    JSC.reading (D := D) rules writes value .json = .ok (QuickJS.reading rules value .json) ↔
      value.ReadAlike (D := D) rules writes .json := by
  unfold JSC.reading QuickJS.reading Value.ReadAlike
  cases isUndefined : value.isUndefined with
  | true => simp [Value.toJson_of_isUndefined isUndefined, JSC.jsonText]
  | false =>
      cases value.toJson rules with
      | threw => simp [JSC.jsonText, QuickJS.jsonText, JsonResult.ReadAlike]
      | absent => simp [JSC.jsonText, QuickJS.jsonText, JsonResult.ReadAlike]
      | text text =>
          simp [JSC.jsonText, QuickJS.jsonText, JsonResult.ReadAlike,
            QuickJS.toCStringLen_string]

theorem reading_int_eq_iff :
    JSC.reading (D := D) rules writes value .int = .ok (QuickJS.reading rules value .int) ↔
      value.ReadAlike (D := D) rules writes .int := by
  unfold JSC.reading QuickJS.reading Value.ReadAlike
  cases value.number? with
  | none => simp
  | some number =>
      dsimp only
      rw [JSC.intOfDouble_eq]
      cases whole : intOf number with
      | none => simp [Except.map, whole]
      | some integer => simp [Except.map, whole, QuickJS.int64OfDouble_of_intOf whole]

theorem reading_decodable_eq_iff (decode : Bytes → Option D) :
    JSC.reading rules writes value (.decodable decode) =
        .ok (QuickJS.reading rules value (.decodable decode)) ↔
      value.ReadAlike rules writes (.decodable decode) := by
  unfold JSC.reading QuickJS.reading Value.ReadAlike
  cases isUndefined : value.isUndefined with
  | true => simp [Value.toJson_of_isUndefined isUndefined, JSC.jsonText]
  | false =>
      cases value.toJson rules with
      | threw => simp [JSC.jsonText, QuickJS.jsonText, JsonResult.ReadAlike]
      | absent => simp [JSC.jsonText, QuickJS.jsonText, JsonResult.ReadAlike, eq_comm]
      | text text =>
          by_cases hasRoom : text.string.HasRoom
          · simp [JSC.jsonText, QuickJS.jsonText, JsonResult.ReadAlike,
              QuickJS.toCStringLen_string, hasRoom]
          · simp [JSC.jsonText, QuickJS.jsonText, JsonResult.ReadAlike,
              QuickJS.toCStringLen_string, hasRoom, eq_comm]

theorem reading_eq_iff (wellWritten : JSC.WritesTexts writes) (reader : ValueReader D) :
    JSC.MayRead value reader ∧
        JSC.reading rules writes value reader = .ok (QuickJS.reading rules value reader) ↔
      value.ReadAlike rules writes reader := by
  cases reader with
  | hitch => simpa [JSC.MayRead] using reading_hitch_eq_iff rules value wellWritten
  | json => simpa [JSC.MayRead] using reading_json_eq_iff rules value
  | int => simpa [JSC.MayRead] using reading_int_eq_iff rules value
  | decodable decode => simpa [JSC.MayRead] using reading_decodable_eq_iff rules value decode
  | _ => simp [JSC.MayRead, JSC.reading, QuickJS.reading, Value.ReadAlike]

end

/-- The backends read a value alike, and JavaScriptCore does not abort, unless it has no
text or no JSON, its text has a NUL, a lone surrogate or is too long for QuickJS, it is a
number that is no `Int`, or it is to be a function but is `null`, a boolean or a number. -/
theorem readAs_eq_iff {State JSCState : Type} {handle : Handler QuickJS.interface State}
    {jscHandle : Handler JSC.interface JSCState} {context : JSC.JSGlobalContextRef}
    {isCell : JSCState → JSC.JSValueRef → Bool} {rules : TextRules}
    {writes : List UInt16 → Bytes} {held : QuickJS.JSValue} {jscHeld : JSC.JSValueRef}
    {value : Value} {state : State} {jscState : JSCState}
    (reads : QuickJS.ReadsValues handle) (holds : QuickJS.Holds handle rules held value state)
    (strings : JSC.ReadsStrings jscHandle) (wellWritten : JSC.WritesTexts writes)
    (jscHolds : JSC.Holds jscHandle context rules writes jscHeld value jscState)
    (cells : isCell jscState jscHeld = value.isCell) (reader : ValueReader D) :
    (JSC.readAs context jscHeld reader).Always jscHandle (JSC.AsksCells isCell) jscState ∧
        ((JSC.readAs context jscHeld reader).run jscHandle jscState).1 =
          .ok ((QuickJS.readAs held reader).run handle state).1 ↔
      value.ReadAlike rules writes reader := by
  rw [JSC.always_readAs_iff jscHolds cells, ← reading_eq_iff rules value wellWritten]
  refine and_congr_right fun may => ?_
  rw [JSC.run_readAs strings jscHolds reader may, QuickJS.run_readAs reads holds]

/-! ## Engines with one value -/

/-- How QuickJS holds a value; text of JSON is kept at 1. -/
def QuickJS.heldOf : Value → QuickJS.JSValue
  | .undefined => .undefined
  | .null => .null
  | .boolean value => .bool value
  | .number value => .float64 value
  | .string _ => .string 0
  | .symbol => .symbol 0
  | .bigInt _ _ => .bigInt 0
  | .object _ _ _ => .object 0

def QuickJS.jsonOf : JsonResult → QuickJS.JSValue
  | .threw => .exception
  | .absent => .undefined
  | .text _ => .string 1

def QuickJS.valueHandle (rules : TextRules) (value : Value) : Handler QuickJS.interface Unit
  | .jsToCString .exception, state => (none, state)
  | .jsToCString .undefined, state => (some undefinedText.bytes, state)
  | .jsToCString (.string 1), state => (QuickJS.jsonText (value.toJson rules), state)
  | .jsToCString _, state => ((value.toText rules).bind QuickJS.toCStringLen, state)
  | .jsJSONStringify _ _ _, state => (QuickJS.jsonOf (value.toJson rules), state)
  | .jsIsFunction _, state => (value.callable, state)
  | command, state => QuickJS.tagHandle command state

theorem QuickJS.readsValues_valueHandle (rules : TextRules) (value : Value) :
    QuickJS.ReadsValues (QuickJS.valueHandle rules value) where
  numbers := ⟨fun _ _ => rfl, fun _ _ => rfl, fun value _ => by cases value <;> rfl⟩
  exceptionText := fun _ => rfl
  undefinedText := fun _ => rfl
  dupValue := fun _ _ => rfl

theorem QuickJS.holds_valueHandle (rules : TextRules) (value : Value) :
    QuickJS.Holds (QuickJS.valueHandle rules value) rules (QuickJS.heldOf value) value () where
  represents := by cases value <;> trivial
  toText := by cases value <;> rfl
  toJson := by
    have isJson : ∀ result, QuickJS.jsonText result = QuickJS.jsonText (value.toJson rules) →
        QuickJS.HoldsJson (QuickJS.valueHandle rules value) (QuickJS.jsonOf result) () result := by
      intro result same
      cases result with
      | threw => rfl
      | absent => rfl
      | text text => exact same.symm
    exact isJson _ rfl
  isFunction := rfl

/-- The engine answers for its value, whatever the reference. -/
def JSC.valueHandle (rules : TextRules) (value : Value) : Handler JSC.interface Unit
  | .jsValueIsUndefined _ _, state => (value.isUndefined, state)
  | .jsValueIsNumber _ _, state => (value.number?.isSome, state)
  | .jsValueIsBoolean _ _, state => (value.boolean?.isSome, state)
  | .jsObjectIsFunction _ _, state => (value.callable, state)
  | .jsValueToNumber _ _, state => (value.number?.getD ⟨0⟩, state)
  | .jsValueToBoolean _ _, state => (value.boolean?.getD false, state)
  | .jsValueToStringCopy _ _, state =>
      ((value.toText rules).map fun string =>
        JSC.JSStringRef.mk 0 (QuickJS.utf16ToUtf8 string.units), state)
  | .jsValueCreateJSONString _ _, state =>
      ((JSC.jsonText (value.toJson rules)).map (JSC.JSStringRef.mk 0), state)
  | command, state => (JSC.emptyAnswer command, state)

theorem JSC.readsStrings_valueHandle (rules : TextRules) (value : Value) :
    JSC.ReadsStrings (JSC.valueHandle rules value) where
  maximumSize := fun _ _ => Nat.lt_succ_self _
  getUTF8CString := fun _ _ _ _ => rfl

theorem JSC.holds_valueHandle (rules : TextRules) (value : Value) :
    JSC.Holds (JSC.valueHandle rules value) 0 rules QuickJS.utf16ToUtf8 0 value () where
  isUndefined := rfl
  isNumber := rfl
  isBoolean := rfl
  isFunction := fun _ => rfl
  toNumber := by
    rintro number rfl
    rfl
  toBoolean := by
    rintro boolean rfl
    rfl
  toText := by simp [JSC.valueHandle, Function.comp_def]
  toJson := by simp [JSC.valueHandle, Function.comp_def]

/-- Rules for values whose texts are not looked at. -/
def noTexts : TextRules := ⟨fun _ => nullText, fun _ => nullText⟩

/-- JavaScriptCore reads the text of `undefined`, and QuickJS reads `nil`. -/
theorem readAs_undefined_differs :
    ((JSC.readAs 0 0 (.hitch : ValueReader Unit)).run
        (JSC.valueHandle noTexts .undefined) ()).1 ≠
      .ok ((QuickJS.readAs .undefined .hitch).run
        (QuickJS.valueHandle noTexts .undefined) ()).1 := by
  have readsText := JSC.run_readAs (JSC.readsStrings_valueHandle _ _)
    (JSC.holds_valueHandle noTexts .undefined) (.hitch : ValueReader Unit) trivial
  have readsNil := QuickJS.run_readAs (QuickJS.readsValues_valueHandle _ _)
    (QuickJS.holds_valueHandle noTexts .undefined) (.hitch : ValueReader Unit)
  intro same
  rw [readsText] at same
  have differs := same.trans (congrArg Except.ok readsNil)
  simp [JSC.reading, QuickJS.reading, Value.isUndefined] at differs

/-- The engine of `valueHandle` has its value in a cell or not, whatever the reference. -/
def JSC.hasCell (value : Value) (_ : Unit) (_ : JSC.JSValueRef) : Bool :=
  value.isCell

theorem readAs_eq_iff_null :
    ((JSC.readAs 0 0 (.json : ValueReader Unit)).Always (JSC.valueHandle noTexts .null)
          (JSC.AsksCells (JSC.hasCell .null)) () ∧
        ((JSC.readAs 0 0 (.json : ValueReader Unit)).run (JSC.valueHandle noTexts .null) ()).1 =
          .ok ((QuickJS.readAs .null .json).run (QuickJS.valueHandle noTexts .null) ()).1 ↔
      Value.null.ReadAlike noTexts QuickJS.utf16ToUtf8 (.json : ValueReader Unit)) ∧
    ((JSC.readAs 0 0 (.function : ValueReader Unit)).Always (JSC.valueHandle noTexts .null)
          (JSC.AsksCells (JSC.hasCell .null)) () ∧
        ((JSC.readAs 0 0 (.function : ValueReader Unit)).run
            (JSC.valueHandle noTexts .null) ()).1 =
          .ok ((QuickJS.readAs .null .function).run (QuickJS.valueHandle noTexts .null) ()).1 ↔
      Value.null.ReadAlike noTexts QuickJS.utf16ToUtf8 (.function : ValueReader Unit)) :=
  ⟨readAs_eq_iff (QuickJS.readsValues_valueHandle _ _) (QuickJS.holds_valueHandle noTexts .null)
      (JSC.readsStrings_valueHandle _ _) QuickJS.utf16ToUtf8_utf16 (JSC.holds_valueHandle _ _)
      rfl .json,
    readAs_eq_iff (QuickJS.readsValues_valueHandle _ _) (QuickJS.holds_valueHandle noTexts .null)
      (JSC.readsStrings_valueHandle _ _) QuickJS.utf16ToUtf8_utf16 (JSC.holds_valueHandle _ _)
      rfl .function⟩

end Jib
