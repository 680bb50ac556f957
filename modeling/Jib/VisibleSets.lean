import Jib.NameSlices
import Jib.QuickJSProperties

/-!
# Globals that are set

QuickJS sets a global with `JS_SetProperty`, which throws where the property
cannot be changed.  JavaScriptCore is asked for a read-only property and says
nothing where there is one already.
-/

namespace Jib

open CommandProgram Program UnicodeText

variable {D : Type}

/-- A NUL-terminated name and its text. -/
structure IsName (name : HalfHitch) (text : List Char) : Prop where
  hasMemory : name.raw.isSome = true
  isText : name.bytes = utf8 text
  noNul : 0 ∉ name.bytes
  terminated : name.following = 0

/-- A setting that succeeds is visible, and one that cannot be made fails and
changes nothing.  `before` and `after` are the values of the property. -/
structure SetVisible {Value : Type} (canSet : Prop) (value : Value) (before after : Option Value)
    (reply : Option Bool) : Prop where
  visible : reply = some true → after = some value
  refused : ¬ canSet → reply = none ∧ after = before

/-! ## QuickJS -/

namespace QuickJS

/-- What settings of globals depend on: the global object and its prototypes,
the names of atoms, the exception that is pending, the values whose text is
read without a change of the global object, and whether new errors are such. -/
structure Globals where
  object : PropertyObject (List UInt16) JSValue
  prototypes : List (Prototype (List UInt16) JSValue)
  narrowAtoms : List Bytes
  nameOf : Atom → Option (List UInt16)
  pending : Option JSValue
  quiet : JSValue → Prop
  quietErrors : Prop

/-- What engine functions do to the globals; most may run scripts, which do as
they like. -/
def setting (rules : NameRules (List UInt16)) (global : JSValue) : Effect interface Globals
  | .jsNewAtom name, before, atom, after =>
      after.object = before.object ∧ after.prototypes = before.prototypes ∧
        (before.quietErrors → after.quietErrors) ∧
        after.nameOf atom = nameUnits before.narrowAtoms name
  | .jsSetProperty object atom value, before, ok, after =>
      object = global → ∀ name, before.nameOf atom = some name →
        match before.object.setProperty rules before.prototypes name value with
        | some (true, changed) => ok = true ∧ after.object = changed
        | some (false, changed) =>
            ok = false ∧ after.object = changed ∧
              ∃ error, after.pending = some error ∧ (before.quietErrors → after.quiet error)
        | none => True
  | .jsGetException, before, thrown, after =>
      after.object = before.object ∧ after.quiet = before.quiet ∧
        ∀ error ∈ before.pending, thrown = error
  | .jsToCString value, before, _, after => before.quiet value → after.object = before.object
  | .jsFreeCString _, before, _, after => after.object = before.object
  | .jsFreeValue _, before, _, after => after.object = before.object
  | .jsFreeAtom _, before, _, after => after.object = before.object
  | .setException _, before, _, after => after.object = before.object
  | _, _, _, _ => True

/-- The commands of a program and its ends, with nothing that commands need. -/
abbrev Sets {α : Type} (rules : NameRules (List UInt16)) (global : JSValue)
    (post : α → Globals → Prop) (program : Operation α) (state : Globals) : Prop :=
  program.Satisfies (setting rules global) (fun _ _ => True) post state

variable {rules : NameRules (List UInt16)} {global : JSValue}

/-- Recording an error that is quiet changes nothing. -/
theorem sets_recordException {state : Globals} {error : JSValue}
    (pending : state.pending = some error) (quiet : state.quiet error) :
    Sets rules global (fun reply after => reply = none ∧ after.object = state.object)
      recordException state := by
  refine ⟨trivial, ?_⟩
  rintro thrown fetched ⟨sameObject, sameQuiet, isPending⟩
  obtain rfl := isPending error pending
  have rest : ∀ (text : Bytes) (read : Globals), read.object = state.object →
      Sets rules global (fun reply after => reply = none ∧ after.object = state.object) (do
        setException text
        jsFreeValue thrown
        return none : Operation (Option Bool)) read := by
    intro text read same
    refine ⟨trivial, ?_⟩
    intro _ recorded sameRecorded
    refine ⟨trivial, ?_⟩
    intro _ freed sameFreed
    exact ⟨rfl, (sameFreed.trans sameRecorded).trans same⟩
  change Sets rules global _ (exceptionHitch thrown >>= _) fetched
  refine Satisfies.bind ⟨trivial, ?_⟩
  intro utf8 read sameRead
  have same : read.object = state.object :=
    (sameRead (sameQuiet ▸ quiet)).trans sameObject
  cases utf8 with
  | none => exact rest _ read same
  | some utf8 =>
      refine ⟨trivial, ?_⟩
      intro _ freed sameFreed
      exact rest _ freed (sameFreed.trans same)

/-- Nothing but `JS_SetProperty` decides, and the text of an error that it may
throw is read without a change. -/
structure SetsItself (rules : NameRules (List UInt16)) (state : Globals) (text : List Char) :
    Prop where
  nameable : Nameable state.narrowAtoms text
  stays : ¬ state.object.TakenElsewhere rules state.prototypes (utf16 text)
  quiet : state.object.CanSet rules state.prototypes (utf16 text) ∨ state.quietErrors

theorem sets_setGlobal {name : HalfHitch} {text : List Char} (isName : IsName name text)
    {state : Globals} (itself : SetsItself rules state text) (value : JSValue) :
    Sets rules global (fun reply after =>
        SetVisible (state.object.CanSet rules state.prototypes (utf16 text)) value
          (state.object.value? (utf16 text)) (after.object.value? (utf16 text)) reply)
      (setGlobal global name value) state := by
  obtain ⟨memory, isMemory⟩ := Option.isSome_iff_exists.mp isName.hasMemory
  have named := (nameUnits_cString_eq_iff state.narrowAtoms isMemory isName.isText
    isName.noNul).mpr ⟨isName.terminated, itself.nameable⟩
  obtain ⟨⟨ok, changed⟩, sets⟩ :=
    Option.isSome_iff_exists.mp (PropertyObject.isSome_setProperty itself.stays value)
  have canSet := PropertyObject.canSet_of_setProperty sets
  refine ⟨trivial, ?_⟩
  rintro atom made ⟨sameObject, samePrototypes, stillQuiet, isNamed⟩
  rw [isMemory, Option.getD_some, named] at isNamed
  refine ⟨trivial, ?_⟩
  intro answer after moved
  have outcome := moved rfl _ isNamed
  rw [sameObject, samePrototypes, sets] at outcome
  cases ok with
  | true =>
      obtain ⟨rfl, isChanged⟩ := outcome
      refine ⟨trivial, ?_⟩
      intro _ freed sameFreed
      refine ⟨fun _ => ?_, fun cannot => (cannot (canSet.mpr rfl)).elim⟩
      rw [sameFreed, isChanged, PropertyObject.value?_of_setProperty sets]
  | false =>
      obtain ⟨rfl, isChanged, error, isPending, isQuiet⟩ := outcome
      have quietErrors := itself.quiet.resolve_left fun can => by simpa using canSet.mp can
      refine Satisfies.bind (Satisfies.bind
        ((sets_recordException isPending (isQuiet (stillQuiet quietErrors))).mono ?_))
      rintro recorded ended ⟨rfl, sameEnded⟩
      refine ⟨trivial, ?_⟩
      intro _ freed sameFreed
      refine ⟨nofun, fun _ => ⟨rfl, ?_⟩⟩
      rw [sameFreed, sameEnded, isChanged, PropertyObject.value?_of_setProperty_refused sets]

end QuickJS

/-! ## JavaScriptCore -/

namespace JSC

/-- The property of a name that `JSObjectSetProperty` finds at the global
object: none, one that a prototype has and that can be shadowed, or one of its
own.  Elsewhere other code decides, or the documentation does not. -/
inductive GlobalProperty
  | absent
  | inherited
  | own (value : JSValueRef) (writable : Bool)
  | elsewhere
  deriving DecidableEq

def GlobalProperty.value? : GlobalProperty → Option JSValueRef
  | .own value _ => some value
  | _ => none

/-- The property can be set: it is not one that is read-only. -/
def GlobalProperty.CanSet : GlobalProperty → Prop
  | .own _ writable => writable = true
  | _ => True

/-- What settings of globals depend on: the properties of the global object,
and whether the `Jib` has been released. -/
structure Globals where
  property : Bytes → GlobalProperty
  released : Bool

/-- `JSObjectSetProperty` gives a new property its attributes, and says nothing
of one that is read-only. -/
def PropertySet (value : JSValueRef) (attributes : Nat) (before after : GlobalProperty)
    (exception : Option JSValueRef) : Prop :=
  match before with
  | .absent =>
      exception = none ∧ after = .own value (attributes &&& kJSPropertyAttributeReadOnly == 0)
  | .inherited => exception = none ∧ ∃ writable, after = .own value writable
  | .own _ true => exception = none ∧ after = .own value true
  | .own given false => exception = none ∧ after = .own given false
  | .elsewhere => True

/-- What engine functions do to the globals; most may run scripts, which do as
they like. -/
def setting (jib : JibFields) : Effect interface Globals
  | .readReleased, before, released, after => released = before.released ∧ after = before
  | .jsStringCreateWithUTF8CString text, before, string, after =>
      after = before ∧
        ∀ chars, text = utf8 chars → ∃ pointer, string = some ⟨pointer, text⟩
  | .jsObjectSetProperty _ object name value attributes, before, exception, after =>
      object = jib.global → ∀ string ∈ name, ∀ given ∈ value,
        PropertySet given attributes (before.property string.text) (after.property string.text)
          exception
  | .jsStringRelease _, before, _, after => after.property = before.property
  | _, _, _, _ => True

variable {jib : JibFields}

/-- The commands of a program and its ends, with nothing that commands need. -/
abbrev Sets {α : Type} (jib : JibFields) (post : α → Globals → Prop) (program : Operation α)
    (state : Globals) : Prop :=
  program.Satisfies (setting jib) (fun _ _ => True) post state

/-- A property that is set without an exception has the value exactly if it is
not read-only; read-only ones are where the reply should be `nil`. -/
theorem setVisible_iff_of_propertySet {value : JSValueRef} {attributes : Nat}
    {before after : GlobalProperty} {exception : Option JSValueRef}
    (isSet : PropertySet value attributes before after exception)
    (decided : before ≠ .elsewhere) :
    exception = none ∧
      (SetVisible before.CanSet value before.value? after.value? (some true) ↔ before.CanSet) := by
  have visible : after.value? = some value →
      SetVisible True value before.value? after.value? (some true) :=
    fun isValue => ⟨fun _ => isValue, fun cannot => (cannot trivial).elim⟩
  cases before with
  | absent =>
      obtain ⟨rfl, rfl⟩ := isSet
      exact ⟨rfl, iff_of_true (visible rfl) trivial⟩
  | inherited =>
      obtain ⟨rfl, writable, rfl⟩ := isSet
      exact ⟨rfl, iff_of_true (visible rfl) trivial⟩
  | own given writable =>
      cases writable with
      | true =>
          obtain ⟨rfl, rfl⟩ := isSet
          refine ⟨rfl, iff_of_true ⟨fun _ => rfl, fun cannot => (cannot rfl).elim⟩ rfl⟩
      | false =>
          obtain ⟨rfl, rfl⟩ := isSet
          have cannot : ¬ GlobalProperty.CanSet (.own given false) := Bool.false_ne_true
          refine ⟨rfl, iff_of_false ?_ cannot⟩
          intro isVisible
          cases (isVisible.refused cannot).1
  | elsewhere => exact (decided rfl).elim

/-- A setting is as it should be exactly if the property is not read-only, or
the `Jib` has been released. -/
theorem sets_setGlobalValue {name : HalfHitch} {text : List Char} (isName : IsName name text)
    {state : Globals} (decided : state.property name.bytes ≠ .elsewhere) (value : JSValueRef) :
    Sets jib (fun reply after =>
        SetVisible (state.property name.bytes).CanSet value (state.property name.bytes).value?
            (after.property name.bytes).value? reply ↔
          state.released = true ∨ (state.property name.bytes).CanSet)
      (setGlobalValue jib name value) state := by
  refine ⟨trivial, ?_⟩
  rintro released _ ⟨isReleased, rfl⟩
  cases released with
  | true => exact iff_of_true ⟨nofun, fun _ => ⟨rfl, rfl⟩⟩ (Or.inl isReleased.symm)
  | false =>
      apply Satisfies.locked
      rw [createJSString_eq isName.hasMemory, cString_of_noNul isName.noNul]
      refine ⟨trivial, ?_⟩
      rintro string _ ⟨rfl, isMade⟩
      obtain ⟨pointer, rfl⟩ := isMade text isName.isText
      refine ⟨trivial, ?_⟩
      intro exception moved isSet
      obtain ⟨rfl, isVisible⟩ :=
        setVisible_iff_of_propertySet (isSet rfl _ rfl value rfl) decided
      refine ⟨trivial, ?_⟩
      intro _ freed sameFreed
      change SetVisible _ _ _ (freed.property name.bytes).value? (some true) ↔ _
      rw [← isReleased, sameFreed]
      exact isVisible.trans (or_iff_right Bool.false_ne_true).symm

end JSC

/-! ## Settings in a history -/

namespace QuickJS

/-- The name and the value of the global that an operation sets. -/
def PublicOperation.set? : PublicOperation D → Option (HalfHitch × JSValue)
  | .setGlobal name value => some (name, value)
  | .setGlobalFunction name value => some (name, value.functionValueRef)
  | _ => none

def settingMachine (D : Type) (rules : NameRules (List UInt16)) (global : JSValue) :
    Machine interface (PublicOperation D) (Reply D) Globals where
  program := PublicOperation.program global
  effect := setting rules global
  Enabled := fun _ _ => True
  enter := fun _ globals => globals
  finish := fun _ _ globals => globals

theorem program_of_set {operation : PublicOperation D} {name : HalfHitch} {value : JSValue}
    (isSet : operation.set? = some (name, value)) (global : JSValue) :
    operation.program global = Reply.success <$> setGlobal global name value := by
  cases operation with
  | setGlobal other given =>
      obtain ⟨rfl, rfl⟩ : other = name ∧ given = value := by
        simpa [PublicOperation.set?] using isSet
      rfl
  | setGlobalFunction other given =>
      obtain ⟨rfl, rfl⟩ : other = name ∧ given.functionValueRef = value := by
        simpa [PublicOperation.set?] using isSet
      rfl
  | _ => cases isSet

end QuickJS

namespace JSC

/-- The name and the value of the global that an operation sets. -/
def PublicOperation.set? (jib : JibFields) : PublicOperation D → Option (HalfHitch × JSValueRef)
  | .setGlobalValue name value => some (name, value)
  | .setGlobal name value => some (name, value.objectRef.getD jib.undefined)
  | _ => none

def settingMachine (D : Type) (jib : JibFields) :
    Machine interface (PublicOperation D) (Reply D) Globals where
  program := PublicOperation.program jib
  effect := setting jib
  Enabled := fun _ _ => True
  enter := fun _ globals => globals
  finish := fun _ _ globals => globals

theorem program_of_set {jib : JibFields} {operation : PublicOperation D} {name : HalfHitch}
    {value : JSValueRef} (isSet : operation.set? jib = some (name, value)) :
    operation.program jib = Reply.success <$> setGlobalValue jib name value := by
  cases operation with
  | setGlobalValue other given =>
      obtain ⟨rfl, rfl⟩ : other = name ∧ given = value := by
        simpa [PublicOperation.set?] using isSet
      rfl
  | setGlobal other given =>
      obtain ⟨rfl, rfl⟩ : other = name ∧ given.objectRef.getD jib.undefined = value := by
        simpa [PublicOperation.set?] using isSet
      rfl
  | _ => cases isSet

end JSC

/-- In every history of a `Jib`, a global that QuickJS sets itself is set
visibly, and one that JavaScriptCore sets itself exactly if it is not read-only
or the `Jib` has been released. -/
theorem setVisible_iff (rules : QuickJS.NameRules (List UInt16)) (global : QuickJS.JSValue)
    (jib : JSC.JibFields) :
    (∀ start completed last,
      (QuickJS.settingMachine D rules global).History start completed last →
        ∀ ended ∈ completed, ∀ name value text,
          ended.operation.set? = some (name, value) → IsName name text →
            QuickJS.SetsItself rules ended.before text →
              ∃ result, ended.reply = .success result ∧
                SetVisible
                  (ended.before.object.CanSet rules ended.before.prototypes (utf16 text)) value
                  (ended.before.object.value? (utf16 text))
                  (ended.after.object.value? (utf16 text)) result) ∧
      ∀ start completed last, (JSC.settingMachine D jib).History start completed last →
        ∀ ended ∈ completed, ∀ name value text,
          ended.operation.set? jib = some (name, value) → IsName name text →
            ended.before.property name.bytes ≠ .elsewhere →
              ∃ result, ended.reply = .success result ∧
                (SetVisible (ended.before.property name.bytes).CanSet value
                    (ended.before.property name.bytes).value?
                    (ended.after.property name.bytes).value? result ↔
                  ended.before.released = true ∨
                    (ended.before.property name.bytes).CanSet) := by
  constructor
  · intro start completed last history ended member name value text isSet isName itself
    have yields := history.yields_of_mem member
    change ((ended.operation.program global).Yields _ _ _ _) at yields
    rw [QuickJS.program_of_set isSet] at yields
    exact (QuickJS.sets_setGlobal isName itself value).of_yields_map yields
  · intro start completed last history ended member name value text isSet isName decided
    have yields := history.yields_of_mem member
    change ((ended.operation.program jib).Yields _ _ _ _) at yields
    rw [JSC.program_of_set isSet] at yields
    exact (JSC.sets_setGlobalValue isName decided value).of_yields_map yields

/-! ## Engines that keep globals -/

/-- `"x"`. -/
def nameX : HalfHitch := .ofBytes [120]

theorem isName_nameX : IsName nameX ['x'] := ⟨rfl, by decide, by decide, rfl⟩

/-- No name is an index. -/
def QuickJS.plainRules : QuickJS.NameRules (List UInt16) := ⟨fun _ => none, fun _ => false⟩

/-- An engine that knows the last atom it has made. -/
def QuickJS.globalsHandle : Handler QuickJS.interface QuickJS.Globals
  | .jsNewAtom name, globals =>
      (0, { globals with nameOf := fun _ => QuickJS.nameUnits globals.narrowAtoms name })
  | .jsSetProperty _ atom value, globals =>
      match (globals.nameOf atom).bind fun name =>
        globals.object.setProperty QuickJS.plainRules globals.prototypes name value with
      | some (true, changed) => (true, { globals with object := changed })
      | some (false, changed) =>
          (false, { globals with object := changed, pending := some .null, quiet := fun _ => True })
      | none => (true, globals)
  | .jsGetException, globals => (globals.pending.getD .undefined, globals)
  | command, globals => (QuickJS.constantAnswer .undefined command, globals)

theorem QuickJS.globalsHandle_follows (command : QuickJS.Command) (globals : QuickJS.Globals) :
    QuickJS.setting QuickJS.plainRules .undefined command globals
      (QuickJS.globalsHandle command globals).1 (QuickJS.globalsHandle command globals).2 := by
  cases command with
  | jsNewAtom name => exact ⟨rfl, rfl, id, rfl⟩
  | jsSetProperty object atom value =>
      intro _ name isName
      simp only [QuickJS.globalsHandle, isName, Option.bind_some]
      cases globals.object.setProperty QuickJS.plainRules globals.prototypes name value with
      | none => trivial
      | some outcome =>
          obtain ⟨ok, changed⟩ := outcome
          cases ok
          · exact ⟨rfl, rfl, _, rfl, fun _ => trivial⟩
          · exact ⟨rfl, rfl⟩
  | jsGetException =>
      refine ⟨rfl, rfl, ?_⟩
      intro error isPending
      exact congrArg (Option.getD · .undefined) isPending
  | _ => first | trivial | rfl | exact fun _ => rfl

/-- A global object without properties. -/
def QuickJS.freshGlobals : QuickJS.Globals where
  object := ⟨fun _ => none, true⟩
  prototypes := []
  narrowAtoms := []
  nameOf := fun _ => none
  pending := none
  quiet := fun _ => False
  quietErrors := False

theorem QuickJS.setsItself_freshGlobals :
    QuickJS.SetsItself QuickJS.plainRules QuickJS.freshGlobals ['x'] where
  nameable := by
    rw [QuickJS.Nameable, if_neg (by decide)]
    exact ⟨by decide, Or.inl (by decide)⟩
  stays := nofun
  quiet := Or.inl ⟨nofun, rfl⟩

/-- What `JSObjectSetProperty` makes of a property. -/
def JSC.GlobalProperty.set (value : JSC.JSValueRef) (attributes : Nat) :
    JSC.GlobalProperty → JSC.GlobalProperty
  | .absent => .own value (attributes &&& JSC.kJSPropertyAttributeReadOnly == 0)
  | .inherited => .own value true
  | .own _ true => .own value true
  | .own given false => .own given false
  | .elsewhere => .elsewhere

/-- Write the property of a name. -/
def JSC.Globals.write (globals : JSC.Globals) (name : Bytes) (property : JSC.GlobalProperty) :
    JSC.Globals :=
  { globals with property := Function.update globals.property name property }

def JSC.globalsHandle : Handler JSC.interface JSC.Globals
  | .readReleased, globals => (globals.released, globals)
  | .jsStringCreateWithUTF8CString text, globals => (some ⟨0, text⟩, globals)
  | .jsObjectSetProperty _ _ (some name) (some value) attributes, globals =>
      (none, globals.write name.text ((globals.property name.text).set value attributes))
  | command, globals => (JSC.emptyAnswer command, globals)

theorem JSC.globalsHandle_follows (command : JSC.Command) (globals : JSC.Globals) :
    JSC.setting JSC.someJib command globals (JSC.globalsHandle command globals).1
      (JSC.globalsHandle command globals).2 := by
  cases command with
  | readReleased => exact ⟨rfl, rfl⟩
  | jsStringCreateWithUTF8CString text => exact ⟨rfl, fun _ _ => ⟨0, rfl⟩⟩
  | jsObjectSetProperty context object name value attributes =>
      rintro - string isString given isGiven
      obtain rfl : name = some string := isString
      obtain rfl : value = some given := isGiven
      simp only [JSC.globalsHandle, JSC.Globals.write, Function.update_self]
      cases globals.property string.text with
      | absent => exact ⟨rfl, rfl⟩
      | inherited => exact ⟨rfl, true, rfl⟩
      | own kept writable => cases writable <;> exact ⟨rfl, rfl⟩
      | elsewhere => trivial
  | jsStringRelease string => exact Eq.refl globals.property
  | _ => trivial

/-- A global object without properties. -/
def JSC.freshGlobals : JSC.Globals := ⟨fun _ => .absent, false⟩

/-- One operation that sets `x`. -/
theorem QuickJS.history_set (value : QuickJS.JSValue) :
    ∃ reply after,
      (QuickJS.settingMachine Unit QuickJS.plainRules .undefined).History QuickJS.freshGlobals
        [⟨.setGlobal nameX value, QuickJS.freshGlobals, reply, after⟩] after :=
  ⟨_, _, .operation .start (QuickJS.PublicOperation.setGlobal nameX value) trivial
    (yields_run QuickJS.globalsHandle_follows _ _)⟩

theorem JSC.history_set (value : JSC.JSValueRef) :
    ∃ reply after, (JSC.settingMachine Unit JSC.someJib).History JSC.freshGlobals
        [⟨.setGlobalValue nameX value, JSC.freshGlobals, reply, after⟩] after :=
  ⟨_, _, .operation .start (JSC.PublicOperation.setGlobalValue nameX value) trivial
    (yields_run JSC.globalsHandle_follows _ _)⟩

/-- The global keeps the value that it was set to first. -/
theorem not_setVisible_again :
    ∃ completed last,
      (JSC.settingMachine Unit JSC.someJib).History JSC.freshGlobals completed last ∧
        completed.map Machine.Completed.operation =
          [.setGlobalValue nameX 2, .setGlobalValue nameX 1] ∧
        ∃ ended ∈ completed, ended.operation.set? JSC.someJib = some (nameX, 2) ∧
          IsName nameX ['x'] ∧ ended.reply = .success (some true) ∧
          (ended.after.property nameX.bytes).value? = some 1 := by
  have first := yields_run JSC.globalsHandle_follows
    ((JSC.settingMachine Unit JSC.someJib).program (.setGlobalValue nameX 1)) JSC.freshGlobals
  have second := yields_run JSC.globalsHandle_follows
    ((JSC.settingMachine Unit JSC.someJib).program (.setGlobalValue nameX 2))
  refine ⟨_, _, .operation (.operation .start _ trivial first) _ trivial (second _), rfl, _,
    List.mem_cons_self, rfl, isName_nameX, ?_, ?_⟩
  · rfl
  · rfl

theorem setVisible_iff_first :
    (∃ reply after,
      (QuickJS.settingMachine Unit QuickJS.plainRules .undefined).History QuickJS.freshGlobals
          [⟨.setGlobal nameX (.int 1), QuickJS.freshGlobals, reply, after⟩] after ∧
        ∃ result, reply = .success result ∧
          SetVisible (QuickJS.freshGlobals.object.CanSet QuickJS.plainRules [] (utf16 ['x']))
            (.int 1) (QuickJS.freshGlobals.object.value? (utf16 ['x']))
            (after.object.value? (utf16 ['x'])) result) ∧
      ∃ reply after, (JSC.settingMachine Unit JSC.someJib).History JSC.freshGlobals
          [⟨.setGlobalValue nameX 1, JSC.freshGlobals, reply, after⟩] after ∧
        ∃ result, reply = .success result ∧
          (SetVisible (JSC.freshGlobals.property nameX.bytes).CanSet 1
              (JSC.freshGlobals.property nameX.bytes).value?
              (after.property nameX.bytes).value? result ↔
            JSC.freshGlobals.released = true ∨
              (JSC.freshGlobals.property nameX.bytes).CanSet) := by
  have visible := setVisible_iff (D := Unit) QuickJS.plainRules .undefined JSC.someJib
  obtain ⟨reply, after, history⟩ := QuickJS.history_set (.int 1)
  obtain ⟨jscReply, jscAfter, jscHistory⟩ := JSC.history_set 1
  have absent : JSC.freshGlobals.property nameX.bytes ≠ .elsewhere :=
    fun elsewhere => by cases elsewhere
  exact ⟨⟨reply, after, history, visible.1 _ _ _ history _ (List.mem_singleton_self _) _ _ _ rfl
      isName_nameX QuickJS.setsItself_freshGlobals⟩,
    jscReply, jscAfter, jscHistory, visible.2 _ _ _ jscHistory _ (List.mem_singleton_self _) _ _
      _ rfl isName_nameX absent⟩

end Jib
