import Jib.ScriptSlices
import Jib.StringRoundTrips

/-!
# The names of globals and functions

QuickJS takes a name as a C string, and the operations give it the pointer of
their slice.  It looks among its atoms for one with the bytes of the name as
chars before it decodes them.  JavaScriptCore is given strings that are made
like scripts.
-/

namespace Jib

open CommandProgram Program UnicodeText

namespace HalfHitch

variable {slice : HalfHitch} {memory : Bytes}

theorem cString_raw_eq_append (hasMemory : slice.raw = some memory) (noNul : 0 ∉ slice.bytes) :
    cString memory = slice.bytes ++ cString (memory.drop slice.count) := by
  have whole : slice.bytes ++ memory.drop slice.count = memory := by
    rw [bytes, hasMemory]
    exact List.take_append_drop _ _
  have noneNul : ∀ byte ∈ slice.bytes, decide (byte ≠ 0) = true := by
    intro byte member
    simpa using fun isNul : byte = 0 => noNul (isNul ▸ member)
  rw [cString, cString]
  conv_lhs => rw [← whole, List.takeWhile_append_of_pos noneNul]

theorem cString_drop_eq_nil_iff (hasMemory : slice.raw = some memory) :
    cString (memory.drop slice.count) = [] ↔ slice.following = 0 := by
  have inside : slice.count < memory.length :=
    slice.readable memory (by simp [hasMemory])
  have next : slice.following = memory[slice.count] := by
    simp [following, hasMemory, List.getElem?_eq_getElem inside]
  rw [cString, List.drop_eq_getElem_cons inside, List.takeWhile_cons, next]
  by_cases isNul : memory[slice.count] = 0 <;> simp [isNul]

/-- A C function reads just the slice exactly when a NUL follows it. -/
theorem cString_raw_eq_iff (hasMemory : slice.raw = some memory) (noNul : 0 ∉ slice.bytes) :
    cString memory = slice.bytes ↔ slice.following = 0 := by
  rw [cString_raw_eq_append hasMemory noNul, List.append_right_eq_self,
    cString_drop_eq_nil_iff hasMemory]

end HalfHitch

/-! ## QuickJS -/

namespace QuickJS

/-- `is_digit` of the first byte. -/
def startsWithDigit : Bytes → Bool
  | [] => false
  | first :: _ => 48 ≤ first && first ≤ 57

/-- `__JS_FindAtom` finds an atom: `narrowAtoms` are the strings of the atoms
with chars of 8 bits. -/
def FindsAtom (narrowAtoms : List Bytes) (str : Bytes) : Prop :=
  (str.length = 0 ∨ startsWithDigit str = false) ∧ str ∈ narrowAtoms

instance (narrowAtoms : List Bytes) (str : Bytes) : Decidable (FindsAtom narrowAtoms str) :=
  inferInstanceAs (Decidable (_ ∧ _))

/-- `JS_NewAtomLen`: the string of the atom, or `none` for `JS_ATOM_NULL`. -/
def newAtomLen (narrowAtoms : List Bytes) (str : Bytes) : Option JSString :=
  if FindsAtom narrowAtoms str then some (.str8 str) else newStringLen str

/-- The chars of a name, as they are decoded from a C string. -/
def nameUnits (narrowAtoms : List Bytes) (str : Bytes) : Option (List UInt16) :=
  (newAtomLen narrowAtoms str).map JSString.units

/-- The bytes of a text are taken for the text: an atom that has them as its
chars is of ASCII, or there is none and the text can be a string. -/
def Nameable (narrowAtoms : List Bytes) (text : List Char) : Prop :=
  if FindsAtom narrowAtoms (utf8 text) then ∀ char ∈ text, char.toNat < 0x80
  else Makeable text

theorem units_str8_eq_iff (text : List Char) :
    (JSString.str8 (utf8 text)).units = utf16 text ↔ ∀ char ∈ text, char.toNat < 0x80 := by
  constructor
  · intro same
    have lengths := congrArg List.length same
    rw [JSString.units, List.length_map] at lengths
    exact ascii_of_length_eq lengths.symm
  · intro ascii
    have whole : asciiPrefix (utf8 text) = utf8 text := by
      apply List.takeWhile_eq_self_iff.mpr
      intro byte member
      simpa using utf8_lt_of_ascii ascii byte member
    rw [← decoded_of_ascii (congrArg List.length whole), units_decoded_utf8]

theorem nameUnits_utf8_eq_iff (narrowAtoms : List Bytes) (text : List Char) :
    nameUnits narrowAtoms (utf8 text) = some (utf16 text) ↔ Nameable narrowAtoms text := by
  rw [nameUnits, newAtomLen, Nameable]
  split
  · rw [Option.map_some, Option.some_inj, units_str8_eq_iff]
  · by_cases makeable : Makeable text
    · rw [newStringLen_utf8 makeable, Option.map_some, units_decoded_utf8]
      exact iff_of_true rfl makeable
    · rw [newStringLen_utf8_eq_none makeable]
      exact iff_of_false (fun absent => by cases absent) makeable

/-- Bytes that are read beyond a text make another name. -/
theorem nameUnits_append_ne (narrowAtoms : List Bytes) (text : List Char) {more : Bytes}
    (left : more ≠ []) : nameUnits narrowAtoms (utf8 text ++ more) ≠ some (utf16 text) := by
  have isMore := List.length_pos_of_ne_nil left
  have short := length_utf16_le text
  rw [nameUnits, newAtomLen]
  split
  · intro same
    have lengths := congrArg List.length (Option.some.inj same)
    rw [JSString.units, List.length_map, List.length_append] at lengths
    omega
  · cases made : newStringLen (utf8 text ++ more) with
    | none => exact fun absent => by cases absent
    | some string =>
        obtain rfl := eq_decoded_of_newStringLen made
        exact fun same => units_decoded_ne left text (Option.some.inj same)

/-- The name that is read at a slice is its text exactly when a NUL follows and
the text is nameable. -/
theorem nameUnits_cString_eq_iff (narrowAtoms : List Bytes) {name : HalfHitch} {memory : Bytes}
    {text : List Char} (hasMemory : name.raw = some memory) (isText : name.bytes = utf8 text)
    (noNul : 0 ∉ name.bytes) :
    nameUnits narrowAtoms (cString memory) = some (utf16 text) ↔
      name.following = 0 ∧ Nameable narrowAtoms text := by
  by_cases terminated : name.following = 0
  · rw [(HalfHitch.cString_raw_eq_iff hasMemory noNul).mpr terminated, isText,
      nameUnits_utf8_eq_iff]
    exact (and_iff_right terminated).symm
  · have left : cString (memory.drop name.count) ≠ [] := by
      rw [ne_eq, HalfHitch.cString_drop_eq_nil_iff hasMemory]
      exact terminated
    rw [HalfHitch.cString_raw_eq_append hasMemory noNul, isText]
    exact iff_of_false (nameUnits_append_ne narrowAtoms text left) fun named => terminated named.1

/-- The C string that a command takes as a name. -/
def Command.named? : Command → Option Bytes
  | .jsNewAtom name => some name
  | .jsNewCFunctionMagic name _ _ => some name
  | _ => none

section

variable {State : Type}

/-- The object, name and value of a property that a command sets. -/
def boundBy (nameOf : State → Atom → Option (List UInt16)) (state : State) :
    Command → Option (JSValue × Option (List UInt16) × JSValue)
  | .jsSetProperty object atom value => some (object, nameOf state atom, value)
  | _ => none

/-- The name of a function that a command makes. -/
def madeBy (functionName : State → JSValue → Option (List UInt16))
    (handle : Handler interface State) (state : State) :
    Command → Option (Option (List UInt16))
  | .jsNewCFunctionMagic name length magic =>
      let (function, after) := handle (.jsNewCFunctionMagic name length magic) state
      some (functionName after function)
  | _ => none

/-- The engine names atoms and functions as `JS_NewAtom` does.  `nameOf` and
`functionName` give the chars of the names of atoms and functions. -/
structure NamesAtoms (handle : Handler interface State) (narrowAtoms : State → List Bytes)
    (nameOf : State → Atom → Option (List UInt16))
    (functionName : State → JSValue → Option (List UInt16)) : Prop where
  newAtom : ∀ name state,
    nameOf (handle (.jsNewAtom name) state).2 (handle (.jsNewAtom name) state).1 =
      nameUnits (narrowAtoms state) name
  newFunction : ∀ name length magic state,
    functionName (handle (.jsNewCFunctionMagic name length magic) state).2
        (handle (.jsNewCFunctionMagic name length magic) state).1 =
      nameUnits (narrowAtoms state) name
  makeRetainedPtr : ∀ body state,
    narrowAtoms (handle (.makeRetainedPtr body) state).2 = narrowAtoms state

/-- Neither an atom nor a property nor a function is made. -/
def Command.isNameless : Command → Bool
  | .jsNewAtom _ => false
  | .jsSetProperty .. => false
  | .jsNewCFunctionMagic .. => false
  | _ => true

/-- Only nameless commands. -/
abbrev Nameless {α : Type} (program : Operation α) : Prop :=
  program.Uses fun command : Command => command.isNameless = true

theorem Reading.nameless {α : Type} {program : Operation α} (reading : Reading program) :
    Nameless program :=
  Uses.mono reading fun command isReader => by
    cases command <;> first | rfl | cases isReader

theorem nameless_recordException : Nameless recordException := by
  refine ⟨rfl, ?_⟩
  intro exceptionValue
  exact (reading_exceptionHitch exceptionValue).nameless.bind fun _ =>
    ⟨rfl, fun _ => ⟨rfl, fun _ => trivial⟩⟩

variable {handle : Handler interface State} {narrowAtoms : State → List Bytes}
  {nameOf : State → Atom → Option (List UInt16)}
  {functionName : State → JSValue → Option (List UInt16)}

/-- What a setting shows comes from its first two commands. -/
theorem shows_setGlobal {β : Type} {look : State → Command → Option β}
    (nameless : ∀ command state, Command.isNameless command = true → look state command = none)
    (global : JSValue) (name : HalfHitch) (value : JSValue) (state : State) :
    (setGlobal global name value).shows look handle state =
      (look state (.jsNewAtom (cString (name.raw.getD [])))).toList ++
        (look (handle (.jsNewAtom (cString (name.raw.getD []))) state).2
          (.jsSetProperty global (handle (.jsNewAtom (cString (name.raw.getD []))) state).1
            value)).toList := by
  have rest : ∀ (result : Bool) (atom : Atom), Nameless (do
      let result ← (if result then return some true else recordException : Operation (Option Bool))
      jsFreeAtom atom
      return result) := by
    intro result atom
    refine Uses.bind ?_ fun _ => ⟨rfl, fun _ => trivial⟩
    cases result
    · exact nameless_recordException
    · trivial
  have silent := fun result atom after => ((rest result atom).mono fun command isNameless after =>
    nameless command after isNameless).shows_eq_nil handle after
  rw [setGlobal, shows_locked]
  refine (shows_call _ _ _).trans (congrArg (_ ++ ·) ?_)
  apply (shows_call _ _ _).trans
  exact (congrArg (_ ++ ·) (silent _ _ _)).trans (List.append_nil _)

theorem shows_newFunction {β : Type} {look : State → Command → Option β}
    (nameless : ∀ command state, Command.isNameless command = true → look state command = none)
    (name : HalfHitch) (body : JibFunctionBody) (state : State) :
    (newFunction name body).shows look handle state =
      (look (handle (.makeRetainedPtr body) state).2
        (.jsNewCFunctionMagic (cString (name.raw.getD [])) (name.count % 256)
          (handle (.makeRetainedPtr body) state).1)).toList := by
  have pointer := nameless (.makeRetainedPtr body) state rfl
  have dup := fun value after => nameless (.jsDupValue value) after rfl
  have append := fun function after => nameless (.appendCustomFunction function) after rfl
  rw [newFunction, shows_locked]
  simp only [makeJibFunction, Jib.QuickJS.makeRetainedPtr, jsNewCFunctionMagic, jsDupValue,
    appendCustomFunction, call_bind, done_bind, pure_eq_done, shows_call, shows_done, pointer, dup,
    append, Option.toList_none, List.nil_append, List.append_nil]

end

end QuickJS

/-! ## JavaScriptCore -/

namespace JSC

variable {State : Type}

/-- The object, name and value of a property that a command sets. -/
def boundBy : Command → Option (JSObjectRef × Option Bytes × Option JSValueRef)
  | .jsObjectSetProperty _ object name value _ => some (object, name.map JSStringRef.text, value)
  | _ => none

/-- The name of a function that a command makes. -/
def madeBy : Command → Option (Option Bytes)
  | .jsObjectMakeFunctionWithCallback _ name => some (name.map JSStringRef.text)
  | _ => none

/-- A string is made or a property is set. -/
def Command.namesProperty : Command → Bool
  | .jsStringCreateWithUTF8CString _ => true
  | .jsObjectSetProperty .. => true
  | _ => false

/-- A string or a function is made. -/
def Command.namesFunction : Command → Bool
  | .jsStringCreateWithUTF8CString _ => true
  | .jsObjectMakeFunctionWithCallback .. => true
  | _ => false

variable {handle : Handler interface State} {jib : JibFields} {name : HalfHitch}
  {text : List Char} {β : Type} {look : Command → Option β}

/-- Everything after a property has been set. -/
theorem uses_settled (context : JSGlobalContextRef) (string : Option JSStringRef)
    (exception : Option JSValueRef) :
    (match exception with
      | some jsException => do
          let recorded ← record context jsException
          jsStringRelease string
          return recorded
      | none => do
          jsStringRelease string
          return some true : Operation (Option Bool)).Uses fun command : Command =>
        command.namesProperty = false := by
  cases exception with
  | none => exact ⟨rfl, fun _ => trivial⟩
  | some jsException =>
      refine Uses.bind ?_ fun _ => ⟨rfl, fun _ => trivial⟩
      apply Uses.mono (reading_record context jsException)
      intro command isReader
      cases command <;> first | rfl | cases isReader

/-- What a setting shows comes from the string and the property. -/
theorem shows_setGlobalValue (others : ∀ command, command.namesProperty = false →
      look command = none) (hasMemory : name.raw.isSome = true) (value : JSValueRef)
    {state : State} (alive : (handle .readReleased state).1 = false) :
    (setGlobalValue jib name value).shows (fun _ => look) handle state =
      (look (.jsStringCreateWithUTF8CString (cString name.bytes))).toList ++
        (look (.jsObjectSetProperty jib.context jib.global
          (handle (.jsStringCreateWithUTF8CString (cString name.bytes))
            (handle .readReleased state).2).1 (some value)
          (kJSPropertyAttributeReadOnly ||| kJSPropertyAttributeDontEnum |||
            kJSPropertyAttributeDontDelete))).toList := by
  have silent := fun string exception state => ((uses_settled jib.context string exception).mono
    others).shows_eq_nil_of_command handle state
  rw [setGlobalValue, shows_unlessReleased (others _ rfl) alive, createJSString_eq hasMemory]
  refine (shows_call _ _ _).trans (congrArg (_ ++ ·) ?_)
  apply (shows_call _ _ _).trans
  exact (congrArg (_ ++ ·) (silent _ _ _)).trans (List.append_nil _)

/-- Everything after a function has been made. -/
theorem uses_finished (jib : JibFields) (jsClass : JSClassRef) (bodyPtr : AnyPtr)
    (functionName : Option JSStringRef) (object : Option JSObjectRef) :
    (match object with
      | some objectRef => do
          let bodyObject ← jsObjectMake jib.context jsClass bodyPtr
          let _ ← jsObjectSetProperty jib.context objectRef
            (some jibCallbackProperyName) bodyObject 0
          jsValueProtect jib.context (some objectRef)
          jsStringRelease functionName
          return some ⟨jsClass, some objectRef, bodyPtr⟩
      | none => do
          jsStringRelease functionName
          JibFunction.deinit ⟨jsClass, none, bodyPtr⟩
          return none : Operation (Option JibFunction)).Uses fun command : Command =>
        command.namesFunction = false := by
  cases object with
  | some objectRef =>
      exact ⟨rfl, fun _ => ⟨rfl, fun _ => ⟨rfl, fun _ => ⟨rfl, fun _ => trivial⟩⟩⟩⟩
  | none =>
      refine ⟨rfl, fun _ => ⟨rfl, fun _ => ⟨rfl, fun _ => ⟨rfl, ?_⟩⟩⟩⟩
      intro jib
      cases jib with
      | none => trivial
      | some jib =>
          refine ⟨rfl, ?_⟩
          intro released
          cases released
          · exact ⟨rfl, fun _ => trivial⟩
          · trivial

/-- The state in which the name of a function is made a string. -/
def nameState (handle : Handler interface State) (body : JibFunctionBody) (state : State) :
    State :=
  (handle (.makeRetainedPtr body) (handle .jsClassCreate (handle .readReleased state).2).2).2

/-- What the creation of a function shows comes from the string and the function. -/
theorem shows_newFunction (others : ∀ command, command.namesFunction = false →
      look command = none) (hasMemory : name.raw.isSome = true) (body : JibFunctionBody)
    {state : State} (alive : (handle .readReleased state).1 = false) :
    (newFunction jib name body).shows (fun _ => look) handle state =
      (look (.jsStringCreateWithUTF8CString (cString name.bytes))).toList ++
        (look (.jsObjectMakeFunctionWithCallback jib.context
          (handle (.jsStringCreateWithUTF8CString (cString name.bytes))
            (nameState handle body state)).1)).toList := by
  have finished := fun jsClass bodyPtr functionName object state =>
    ((uses_finished jib jsClass bodyPtr functionName object).mono
      others).shows_eq_nil_of_command handle state
  rw [newFunction, shows_unlessReleased (others _ rfl) alive, shows_bind]
  refine Eq.trans (congrArg (List.append _)
    (Uses.shows_eq_nil_of_command (Uses.mono ?_ others) handle _)) ?_
  · split
    · exact ⟨rfl, fun _ => trivial⟩
    · trivial
  apply (List.append_nil _).trans
  rw [makeJibFunction, createJSString_eq hasMemory]
  apply (shows_call _ _ _).trans
  rw [others _ rfl]
  refine (List.nil_append _).trans ((shows_call _ _ _).trans ?_)
  rw [others _ rfl]
  refine (List.nil_append _).trans ((shows_call _ _ _).trans (congrArg (_ ++ ·) ?_))
  apply (shows_call _ _ _).trans
  exact (congrArg (_ ++ ·) (finished _ _ _ _ _)).trans (List.append_nil _)

/-- The string of a name that is UTF-8. -/
theorem text_createdString (makes : MakesStrings handle) (isText : name.bytes = utf8 text)
    (noNul : 0 ∉ name.bytes) (state : State) :
    ((handle (.jsStringCreateWithUTF8CString (cString name.bytes)) state).1).map
      JSStringRef.text = some name.bytes := by
  obtain ⟨pointer, created⟩ := makes text state
  rw [cString_of_noNul noNul, isText, created]
  rfl

end JSC

/-! ## Names that are used exactly -/

namespace QuickJS

variable {State : Type}

/-- The engine is handed the bytes of the name exactly under a condition, for a
global and for a function. -/
structure HandsNameIff (handle : Handler interface State) (name : HalfHitch) (state : State)
    (condition : Prop) : Prop where
  setGlobal_iff : ∀ global value,
    (setGlobal global name value).shows (fun _ => Command.named?) handle state = [name.bytes] ↔
      condition
  newFunction_iff : ∀ body,
    (newFunction name body).shows (fun _ => Command.named?) handle state = [name.bytes] ↔
      condition

/-- The global that is set and the function that is made have these chars as
their names exactly under a condition. -/
structure NamesExactlyIff (handle : Handler interface State)
    (nameOf : State → Atom → Option (List UInt16))
    (functionName : State → JSValue → Option (List UInt16)) (name : HalfHitch)
    (units : List UInt16) (state : State) (condition : Prop) : Prop where
  setGlobal_iff : ∀ global value,
    (setGlobal global name value).shows (boundBy nameOf) handle state =
      [(global, some units, value)] ↔ condition
  newFunction_iff : ∀ body,
    (newFunction name body).shows (madeBy functionName handle) handle state = [some units] ↔
      condition

variable {handle : Handler interface State} {narrowAtoms : State → List Bytes}
  {nameOf : State → Atom → Option (List UInt16)}
  {functionName : State → JSValue → Option (List UInt16)} {name : HalfHitch} {memory : Bytes}

theorem handsName (hasMemory : name.raw = some memory) (noNul : 0 ∉ name.bytes)
    (state : State) : HandsNameIff handle name state (name.following = 0) where
  setGlobal_iff := by
    intro global value
    rw [shows_setGlobal fun command _ isNameless => by
      cases command <;> first | rfl | cases isNameless]
    simp [Command.named?, hasMemory, HalfHitch.cString_raw_eq_iff hasMemory noNul]
  newFunction_iff := by
    intro body
    rw [shows_newFunction fun command _ isNameless => by
      cases command <;> first | rfl | cases isNameless]
    simp [Command.named?, hasMemory, HalfHitch.cString_raw_eq_iff hasMemory noNul]

theorem namesExactly (names : NamesAtoms handle narrowAtoms nameOf functionName)
    (hasMemory : name.raw = some memory) (noNul : 0 ∉ name.bytes) {text : List Char}
    (isText : name.bytes = utf8 text) (state : State) :
    NamesExactlyIff handle nameOf functionName name (utf16 text) state
      (name.following = 0 ∧ Nameable (narrowAtoms state) text) where
  setGlobal_iff := by
    intro global value
    rw [shows_setGlobal fun command _ isNameless => by
      cases command <;> first | rfl | cases isNameless]
    simp [boundBy, hasMemory, names.newAtom,
      nameUnits_cString_eq_iff _ hasMemory isText noNul]
  newFunction_iff := by
    intro body
    rw [shows_newFunction fun command _ isNameless => by
      cases command <;> first | rfl | cases isNameless]
    simp [madeBy, hasMemory, names.newFunction, names.makeRetainedPtr,
      nameUnits_cString_eq_iff _ hasMemory isText noNul]

end QuickJS

namespace JSC

variable {State : Type}

/-- The engine is handed the bytes of the name, for a global and for a
function. -/
structure HandsName (handle : Handler interface State) (jib : JibFields) (name : HalfHitch)
    (state : State) : Prop where
  setGlobalValue : ∀ value,
    (setGlobalValue jib name value).shows (fun _ => Command.created?) handle state = [name.bytes]
  newFunction : ∀ body,
    (newFunction jib name body).shows (fun _ => Command.created?) handle state = [name.bytes]

/-- The global that is set and the function that is made have this name. -/
structure NamesExactly (handle : Handler interface State) (jib : JibFields) (name : HalfHitch)
    (state : State) : Prop where
  setGlobalValue : ∀ value,
    (setGlobalValue jib name value).shows (fun _ => boundBy) handle state =
      [(jib.global, some name.bytes, some value)]
  newFunction : ∀ body,
    (newFunction jib name body).shows (fun _ => madeBy) handle state = [some name.bytes]

variable {handle : Handler interface State} {jib : JibFields} {name : HalfHitch} {state : State}

theorem handsName (hasMemory : name.raw.isSome = true) (noNul : 0 ∉ name.bytes)
    (alive : (handle .readReleased state).1 = false) : HandsName handle jib name state where
  setGlobalValue := by
    intro value
    rw [shows_setGlobalValue (fun command other => by
      cases command <;> first | rfl | cases other) hasMemory value alive]
    simp [Command.created?, cString_of_noNul noNul]
  newFunction := by
    intro body
    rw [shows_newFunction (fun command other => by
      cases command <;> first | rfl | cases other) hasMemory body alive]
    simp [Command.created?, cString_of_noNul noNul]

theorem namesExactly (makes : MakesStrings handle) (hasMemory : name.raw.isSome = true)
    (noNul : 0 ∉ name.bytes) {text : List Char} (isText : name.bytes = utf8 text)
    (alive : (handle .readReleased state).1 = false) : NamesExactly handle jib name state where
  setGlobalValue := by
    intro value
    rw [shows_setGlobalValue (fun command other => by
      cases command <;> first | rfl | cases other) hasMemory value alive]
    simp [boundBy, text_createdString makes isText noNul]
  newFunction := by
    intro body
    rw [shows_newFunction (fun command other => by
      cases command <;> first | rfl | cases other) hasMemory body alive]
    simp [madeBy, text_createdString makes isText noNul]

end JSC

/-- QuickJS is handed the bytes of a slice exactly when a NUL follows it, and a
text then names itself unless an atom has its bytes as chars.  JavaScriptCore is
handed the bytes of every slice. -/
theorem names_iff {State JSCState : Type} {handle : Handler QuickJS.interface State}
    {jscHandle : Handler JSC.interface JSCState} {narrowAtoms : State → List Bytes}
    {nameOf : State → QuickJS.Atom → Option (List UInt16)}
    {functionName : State → QuickJS.JSValue → Option (List UInt16)}
    (names : QuickJS.NamesAtoms handle narrowAtoms nameOf functionName)
    (makes : JSC.MakesStrings jscHandle) (jib : JSC.JibFields) {name : HalfHitch}
    (hasMemory : name.raw.isSome = true) (noNul : 0 ∉ name.bytes) (state : State)
    {jscState : JSCState} (alive : (jscHandle .readReleased jscState).1 = false) :
    QuickJS.HandsNameIff handle name state (name.following = 0) ∧
      JSC.HandsName jscHandle jib name jscState ∧
      ∀ text, name.bytes = utf8 text →
        QuickJS.NamesExactlyIff handle nameOf functionName name (utf16 text) state
            (name.following = 0 ∧ QuickJS.Nameable (narrowAtoms state) text) ∧
          JSC.NamesExactly jscHandle jib name jscState := by
  obtain ⟨memory, isMemory⟩ := Option.isSome_iff_exists.mp hasMemory
  refine ⟨QuickJS.handsName isMemory noNul state, JSC.handsName hasMemory noNul alive, ?_⟩
  intro text isText
  exact ⟨QuickJS.namesExactly names isMemory noNul isText state,
    JSC.namesExactly makes hasMemory noNul isText alive⟩

/-! ## An engine that keeps names -/

/-- `"Ã©"`, the only atom beyond ASCII. -/
def latinAtoms : List Bytes := [[0xC3, 0xA9]]

/-- An engine whose state is the list of the names it has made. -/
def QuickJS.namesHandle : Handler QuickJS.interface (List (Option (List UInt16)))
  | .jsNewAtom name, made => (made.length, made ++ [QuickJS.nameUnits latinAtoms name])
  | .jsNewCFunctionMagic name _ _, made =>
      (.object made.length, made ++ [QuickJS.nameUnits latinAtoms name])
  | command, made => (QuickJS.constantAnswer .undefined command, made)

def QuickJS.listedName (made : List (Option (List UInt16))) (atom : QuickJS.Atom) :
    Option (List UInt16) :=
  (made[atom]?).join

def QuickJS.listedFunctionName (made : List (Option (List UInt16))) :
    QuickJS.JSValue → Option (List UInt16)
  | .object pointer => (made[pointer]?).join
  | _ => none

theorem QuickJS.namesAtoms_namesHandle :
    QuickJS.NamesAtoms QuickJS.namesHandle (fun _ => latinAtoms) QuickJS.listedName
      QuickJS.listedFunctionName where
  newAtom := fun _ made => by simp [QuickJS.namesHandle, QuickJS.listedName]
  newFunction := fun _ _ _ made => by simp [QuickJS.namesHandle, QuickJS.listedFunctionName]
  makeRetainedPtr := fun _ _ => rfl

/-- `"x"` with `"y"` after it. -/
def unterminatedName : HalfHitch where
  raw := some [120, 121]
  count := 1
  readable := by simp

theorem names_iff_unterminated :
    QuickJS.HandsNameIff QuickJS.namesHandle unterminatedName []
        (unterminatedName.following = 0) ∧
      JSC.HandsName JSC.textsHandle JSC.someJib unterminatedName [] ∧
      ∀ text, unterminatedName.bytes = utf8 text →
        QuickJS.NamesExactlyIff QuickJS.namesHandle QuickJS.listedName QuickJS.listedFunctionName
            unterminatedName (utf16 text) []
            (unterminatedName.following = 0 ∧ QuickJS.Nameable latinAtoms text) ∧
          JSC.NamesExactly JSC.textsHandle JSC.someJib unterminatedName [] :=
  names_iff QuickJS.namesAtoms_namesHandle (fun _ _ => ⟨0, rfl⟩) JSC.someJib rfl (by decide) []
    rfl

/-- The slice `x` sets another global and makes a function of another name: `xy`.
`é` sets another global where `Ã©` is an atom. -/
theorem setGlobal_other_name :
    (QuickJS.setGlobal .undefined unterminatedName .null).shows
          (QuickJS.boundBy QuickJS.listedName) QuickJS.namesHandle [] ≠
        [(.undefined, some (utf16 ['x']), .null)] ∧
      (QuickJS.newFunction unterminatedName 0).shows
          (QuickJS.madeBy QuickJS.listedFunctionName QuickJS.namesHandle) QuickJS.namesHandle [] ≠
        [some (utf16 ['x'])] ∧
      (QuickJS.setGlobal .undefined (.ofBytes (utf8 ['é'])) .null).shows
          (QuickJS.boundBy QuickJS.listedName) QuickJS.namesHandle [] ≠
        [(.undefined, some (utf16 ['é']), .null)] := by
  decide +kernel

end Jib
