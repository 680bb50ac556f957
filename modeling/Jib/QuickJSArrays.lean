import Jib.ProgramContracts
import Jib.QuickJSOperations
import Jib.QuickJSProperties
import Jib.QuickJSStrings
import Mathlib.Data.List.Forall2

/-!
# Arrays of strings in QuickJS

`JS_ArrayPush` sets the elements of an array one after another, as a script
does.  An index that the array does not have is looked for along the
prototypes: first in one pass over their classes and shapes, then, where that
pass does not settle it, property by property.
-/

namespace Jib.QuickJS

open CommandProgram Program UnicodeText

/-! ## Prototypes of an array -/

/-- Indices below `2 ^ 31` are tagged integers. -/
def indexRules : NameRules Nat where
  taggedInt? := some
  isNumericIndex _ := true

/-- What the fast path of `JS_SetPropertyValue` looks at: `fast_array` of an
array and `has_small_array_index` of the shape of a plain object. -/
inductive PrototypeClass
  | array (fastArray : Bool)
  | object (hasSmallArrayIndex : Bool)
  | other

/-- A fast array has all its elements in its array part, and only a shape with
the flag has small indices. -/
def PrototypeClass.Describes : PrototypeClass → Prototype Nat JSValue → Prop
  | .array true, prototype =>
      (∀ index, prototype.own index = none) ∧
        ∃ count, prototype.exotic = .fastArray count false
  | .array false, prototype => prototype.exotic = .none
  | .object false, prototype =>
      (∀ index, prototype.own index = none) ∧ prototype.exotic = .none
  | .object true, prototype => prototype.exotic = .none
  | .other, _ => True

structure IndexedPrototype extends Prototype Nat JSValue where
  kind : PrototypeClass
  describes : kind.Describes toPrototype

/-- The walk along the prototypes of an array for an index. -/
def walkIndex (index : Nat) (prototypes : List IndexedPrototype) : Walk :=
  walk indexRules index (prototypes.map IndexedPrototype.toPrototype)

/-- The pass of the fast path over the prototypes. -/
def skipsPrototypes : List IndexedPrototype → Bool
  | [] => true
  | object :: rest =>
      match object.kind with
      | .array fastArray => fastArray && skipsPrototypes rest
      | .object hasSmallArrayIndex => !hasSmallArrayIndex && skipsPrototypes rest
      | .other => false

/-- What becomes of the element that comes next: `JS_SetPropertyValue`, and
where its fast path does not apply `JS_SetPropertyInternal`. -/
def placeNext (prototypes : List IndexedPrototype) (index : Nat) : Walk :=
  if skipsPrototypes prototypes then .absent else walkIndex index prototypes

/-- Prototypes that the fast path skips have no index. -/
theorem walkIndex_of_skipsPrototypes {prototypes : List IndexedPrototype}
    (skips : skipsPrototypes prototypes = true) (index : Nat) :
    walkIndex index prototypes = .absent := by
  induction prototypes with
  | nil => rfl
  | cons object rest ih =>
      have describes := object.describes
      cases isKind : object.kind with
      | array fastArray =>
          simp only [skipsPrototypes, isKind, Bool.and_eq_true] at skips
          obtain ⟨rfl, skips⟩ := skips
          rw [isKind] at describes
          obtain ⟨noOwn, count, isExotic⟩ := describes
          by_cases inside : index < count
          · simp [walkIndex, walk, noOwn, isExotic, Exotic.walk, indexRules, inside]
          · simpa [walkIndex, walk, noOwn, isExotic, Exotic.walk, indexRules, inside]
              using ih skips
      | object hasSmallArrayIndex =>
          simp only [skipsPrototypes, isKind, Bool.and_eq_true, Bool.not_eq_true'] at skips
          obtain ⟨rfl, skips⟩ := skips
          rw [isKind] at describes
          obtain ⟨noOwn, isExotic⟩ := describes
          simpa [walkIndex, walk, noOwn, isExotic, Exotic.walk] using ih skips
      | other => simp [skipsPrototypes, isKind] at skips

/-- The fast path does what the walk does. -/
theorem placeNext_eq (prototypes : List IndexedPrototype) (index : Nat) :
    placeNext prototypes index = walkIndex index prototypes := by
  unfold placeNext
  split
  · rename_i skips
    exact (walkIndex_of_skipsPrototypes skips index).symm
  · rfl

/-! ## Pushing -/

/-- An element of an array; `other` is what is not a string. -/
inductive Element
  | string (string : JSString)
  | other (value : JSValue)

/-- The loop of `js_array_push` on an extensible fast array: whether it got to
its end rather than to an exception, and the elements then.  `none` is where a
setter, a method of a class or a typed array has taken an element. -/
def pushElements (prototypes : List IndexedPrototype) :
    List Element → List Element → Option (Bool × List Element)
  | array, [] => some (true, array)
  | array, element :: rest =>
      match placeNext prototypes array.length with
      | .absent => pushElements prototypes (array ++ [element]) rest
      | .refused => some (false, array)
      | .elsewhere => none

theorem pushElements_of_absent {prototypes : List IndexedPrototype} {elements array : List Element}
    (absent : ∀ index, index < array.length + elements.length →
      walkIndex index prototypes = .absent) :
    pushElements prototypes array elements = some (true, array ++ elements) := by
  induction elements generalizing array with
  | nil => simp [pushElements]
  | cons element rest ih =>
      have here : walkIndex array.length prototypes = .absent := absent _ (by simp)
      have further := @ih (array ++ [element]) fun index below =>
        absent index (by simp only [List.length_append, List.length_cons,
          List.length_nil] at below ⊢; omega)
      simpa [pushElements, placeNext_eq, here] using further

/-- What is pushed stands at the end, and only what found no property of its
index along the prototypes. -/
theorem pushElements_elements {prototypes : List IndexedPrototype}
    {elements array pushed : List Element} {whole : Bool}
    (pushes : pushElements prototypes array elements = some (whole, pushed)) :
    pushed.length ≤ array.length + elements.length ∧
      ∀ index, array.length ≤ index → index < pushed.length →
        walkIndex index prototypes = .absent := by
  induction elements generalizing array with
  | nil =>
      cases pushes
      constructor
      · simp
      · intro index _ _
        omega
  | cons element rest ih =>
      rw [pushElements, placeNext_eq] at pushes
      split at pushes
      · rename_i here
        obtain ⟨bound, absent⟩ := ih pushes
        simp only [List.length_append, List.length_cons, List.length_nil] at bound absent ⊢
        constructor
        · omega
        · intro index low high
          by_cases first : index = array.length
          · rw [first]
            exact here
          · exact absent index (by omega) high
      · cases pushes
        constructor
        · omega
        · intro index _ _
          omega
      · cases pushes

/-! ## Strings and arrays of a context -/

/-- What array building sees of a context: the prototypes of its arrays, the
strings that the Swift code has in hand, the arrays, and how often other code
has taken an element.  Addresses below `next` have been used. -/
structure ArrayContext where
  prototypes : List IndexedPrototype
  next : Address
  strings : Address → Option JSString
  arrays : Address → Option (List Element)
  diverted : Nat

namespace ArrayContext

/-- The element that a value becomes. -/
def element (context : ArrayContext) : JSValue → Element
  | .string pointer =>
      match context.strings pointer with
      | some string => .string string
      | none => .other (.string pointer)
  | value => .other value

def makeString (context : ArrayContext) (pointer : Address) (string : JSString) :
    ArrayContext :=
  { context with
    next := pointer + 1
    strings := Function.update context.strings pointer (some string) }

def makeArray (context : ArrayContext) (pointer : Address) : ArrayContext :=
  { context with
    next := pointer + 1
    arrays := Function.update context.arrays pointer (some []) }

def setArray (context : ArrayContext) (pointer : Address) (elements : List Element) :
    ArrayContext :=
  { context with arrays := Function.update context.arrays pointer (some elements) }

/-- The Swift code gives a string back; arrays keep what they have. -/
def dropString (context : ArrayContext) (pointer : Address) : ArrayContext :=
  { context with strings := Function.update context.strings pointer none }

end ArrayContext

/-- `JS_ArrayPush` on a fast array that is extensible and whose elements all
have indices below `2 ^ 31`. -/
def arrayPush (before : ArrayContext) (pointer : Address) (array elements : List Element)
    (answer : JSValue) (after : ArrayContext) : Prop :=
  match pushElements before.prototypes array elements with
  | some (true, pushed) =>
      answer = jsNewInt64 pushed.length ∧ after = before.setArray pointer pushed
  | some (false, pushed) => answer = .exception ∧ after = before.setArray pointer pushed
  | none => before.diverted < after.diverted

/-- Nothing is said of commands and values that do not occur when an array of
strings is made. -/
def arrayEffect : Effect interface ArrayContext
  | .jsNewStringLen bytes, before, answer, after =>
      match newStringLen bytes with
      | some string => ∃ pointer, before.next ≤ pointer ∧ answer = .string pointer ∧
          after = before.makeString pointer string
      | none => answer = .exception ∧ after = before
  | .jsNewArray, before, answer, after =>
      ∃ pointer, before.next ≤ pointer ∧ answer = .object pointer ∧
        after = before.makeArray pointer
  | .jsArrayPush (.object pointer) arguments, before, answer, after =>
      match before.arrays pointer with
      | some array =>
          arrayPush before pointer array (arguments.map before.element) answer after
      | none => True
  | .jsFreeValue (.string pointer), before, _, after => after = before.dropString pointer
  | .jsFreeValue .exception, before, _, after => after = before
  | _, _, _, _ => True

/-- `Int32(args.count)` traps on more arguments. -/
def arrayNeeds : Command → ArrayContext → Prop
  | .jsArrayPush _ arguments, _ => arguments.length < 2 ^ 31
  | _, _ => True

/-- A command that nothing is said of may be answered in any way. -/
theorem arrayEffect_total (command : Command) (before : ArrayContext) :
    ∃ answer after, arrayEffect command before answer after := by
  have any : Answer command := constantAnswer .undefined command
  cases command with
  | jsNewStringLen bytes =>
      simp only [arrayEffect]
      cases newStringLen bytes with
      | some string => exact ⟨_, _, before.next, le_rfl, rfl, rfl⟩
      | none => exact ⟨_, _, rfl, rfl⟩
  | jsNewArray => exact ⟨_, _, before.next, le_rfl, rfl, rfl⟩
  | jsArrayPush array arguments =>
      cases array with
      | object pointer =>
          simp only [arrayEffect]
          cases before.arrays pointer with
          | none => exact ⟨.undefined, before, trivial⟩
          | some elements =>
              simp only [arrayPush]
              cases pushElements before.prototypes elements
                  (arguments.map before.element) with
              | none => exact ⟨.undefined, { before with diverted := before.diverted + 1 },
                  Nat.lt_succ_self _⟩
              | some pushed =>
                  obtain ⟨whole, pushed⟩ := pushed
                  cases whole <;> exact ⟨_, _, rfl, rfl⟩
      | _ => exact ⟨.undefined, before, trivial⟩
  | jsFreeValue value =>
      cases value with
      | string pointer => exact ⟨(), _, rfl⟩
      | exception => exact ⟨(), _, rfl⟩
      | _ => exact ⟨(), before, trivial⟩
  | _ => exact ⟨any, before, trivial⟩

/-! ## Making an array of strings -/

/-- The element that `JS_NewStringLen` makes of the bytes of a `Hitch`. -/
def made (bytes : Bytes) : Element :=
  match newStringLen bytes with
  | some string => .string string
  | none => .other .exception

/-- A string in hand, or the exception of one that could not be made. -/
def InHand (context : ArrayContext) : JSValue → Prop
  | .string pointer => pointer < context.next
  | .exception => True
  | _ => False

/-- More strings have been made. -/
structure MoreStrings (before after : ArrayContext) : Prop where
  prototypes : after.prototypes = before.prototypes
  arrays : after.arrays = before.arrays
  diverted : after.diverted = before.diverted
  next : before.next ≤ after.next
  strings : ∀ pointer, pointer < before.next → after.strings pointer = before.strings pointer

theorem MoreStrings.refl (context : ArrayContext) : MoreStrings context context :=
  ⟨rfl, rfl, rfl, le_rfl, fun _ _ => rfl⟩

theorem MoreStrings.trans {first middle last : ArrayContext} (begins : MoreStrings first middle)
    (ends : MoreStrings middle last) : MoreStrings first last where
  prototypes := ends.prototypes.trans begins.prototypes
  arrays := ends.arrays.trans begins.arrays
  diverted := ends.diverted.trans begins.diverted
  next := begins.next.trans ends.next
  strings pointer below :=
    (ends.strings pointer (lt_of_lt_of_le below begins.next)).trans (begins.strings pointer below)

theorem moreStrings_makeString {context : ArrayContext} {pointer : Address}
    (unused : context.next ≤ pointer) (string : JSString) :
    MoreStrings context (context.makeString pointer string) where
  prototypes := rfl
  arrays := rfl
  diverted := rfl
  next := Nat.le_succ_of_le unused
  strings _ below := Function.update_of_ne (lt_of_lt_of_le below unused).ne _ _

theorem InHand.more {before after : ArrayContext} {value : JSValue}
    (inHand : InHand before value) (more : MoreStrings before after) : InHand after value := by
  cases value with
  | string pointer => exact lt_of_lt_of_le inHand more.next
  | exception => trivial
  | _ => exact inHand.elim

theorem element_of_more {before after : ArrayContext} {value : JSValue}
    (inHand : InHand before value) (more : MoreStrings before after) :
    after.element value = before.element value := by
  cases value with
  | string pointer => simp only [ArrayContext.element, more.strings pointer inHand]
  | exception => rfl
  | _ => exact inHand.elim

/-- What the conversion of the elements leaves. -/
def StringsMade (hitches : List Bytes) (before : ArrayContext) (values : List JSValue)
    (after : ArrayContext) : Prop :=
  MoreStrings before after ∧ values.map after.element = hitches.map made ∧
    ∀ value ∈ values, InHand after value

theorem satisfies_jsNewStringLen (bytes : Bytes) (before : ArrayContext) :
    (jsNewStringLen bytes).Satisfies arrayEffect arrayNeeds
      (fun value after => MoreStrings before after ∧ after.element value = made bytes ∧
        InHand after value) before := by
  constructor
  · trivial
  · intro answer after moves
    simp only [arrayEffect] at moves
    unfold made
    cases isMade : newStringLen bytes with
    | some string =>
        rw [isMade] at moves
        obtain ⟨pointer, unused, rfl, rfl⟩ := moves
        refine ⟨moreStrings_makeString unused string, ?_, Nat.lt_succ_self pointer⟩
        simp [ArrayContext.element, ArrayContext.makeString]
    | none =>
        rw [isMade] at moves
        obtain ⟨rfl, rfl⟩ := moves
        exact ⟨.refl _, rfl, trivial⟩

theorem satisfies_strings (hitches : List Bytes) (before : ArrayContext) :
    (mapEach jsNewStringLen hitches).Satisfies arrayEffect arrayNeeds
      (StringsMade hitches before) before := by
  induction hitches generalizing before with
  | nil => exact ⟨.refl before, rfl, by simp⟩
  | cons bytes rest ih =>
      apply Satisfies.bind
      apply (satisfies_jsNewStringLen bytes before).mono
      rintro first middle ⟨begins, isFirst, firstInHand⟩
      apply Satisfies.bind
      apply (ih middle).mono
      rintro others after ⟨ends, areOthers, othersInHand⟩
      refine ⟨begins.trans ends, ?_, ?_⟩
      · rw [List.map_cons, List.map_cons, element_of_more firstInHand ends, isFirst, areOthers]
      · intro value member
        rcases List.mem_cons.mp member with rfl | member
        · exact firstInHand.more ends
        · exact othersInHand value member

/-- What has become of an array that was made of `elements`. -/
def Pushed (before : ArrayContext) (pointer : Address) (elements : List Element)
    (after : ArrayContext) : Prop :=
  match pushElements before.prototypes [] elements with
  | some (_, pushed) =>
      after.arrays pointer = some pushed ∧ after.diverted = before.diverted
  | none => before.diverted < after.diverted

theorem pushed_of_arrayPush {before context after : ArrayContext} {pointer : Address}
    {elements : List Element} {answer : JSValue}
    (samePrototypes : context.prototypes = before.prototypes)
    (sameDiverted : context.diverted = before.diverted)
    (moves : arrayPush context pointer [] elements answer after) :
    Pushed before pointer elements after := by
  unfold arrayPush at moves
  unfold Pushed
  rw [samePrototypes] at moves
  split at moves <;> rename_i pushes <;> rw [pushes]
  · rw [moves.2]
    exact ⟨Function.update_self .., sameDiverted⟩
  · rw [moves.2]
    exact ⟨Function.update_self .., sameDiverted⟩
  · rwa [sameDiverted] at moves

/-- Giving strings back does not change arrays. -/
theorem satisfies_freeArguments {before : ArrayContext} {pointer : Address}
    {elements : List Element} {arguments : List JSValue}
    (given : ∀ argument ∈ arguments, argument = .exception ∨ ∃ string, argument = .string string)
    {context : ArrayContext} (pushed : Pushed before pointer elements context) :
    (forEach jsFreeValue arguments).Satisfies arrayEffect arrayNeeds
      (fun _ after => Pushed before pointer elements after) context := by
  induction arguments generalizing context with
  | nil => exact pushed
  | cons argument rest ih =>
      have others : ∀ context, Pushed before pointer elements context →
          (forEach jsFreeValue rest).Satisfies arrayEffect arrayNeeds
            (fun _ after => Pushed before pointer elements after) context :=
        fun _ => ih fun other member => given other (by simp [member])
      constructor
      · trivial
      · intro answer after moves
        rcases given argument (by simp) with rfl | ⟨string, rfl⟩
        · cases moves
          exact others context pushed
        · cases moves
          exact others (context.dropString string) pushed

/-- What `[Hitch].createJibValue` makes. -/
theorem satisfies_createArrayJibValue {hitches : List Bytes}
    (countable : hitches.length < 2 ^ 31) (before : ArrayContext) :
    (createArrayJibValue hitches).Satisfies arrayEffect arrayNeeds
      (fun value after => ∃ pointer, value = .object pointer ∧
        Pushed before pointer (hitches.map made) after) before := by
  apply Satisfies.bind
  apply (satisfies_strings hitches before).mono
  rintro arguments middle ⟨more, areMade, inHand⟩
  have count : arguments.length = hitches.length := by
    simpa using congrArg List.length areMade
  have given : ∀ argument ∈ arguments,
      argument = .exception ∨ ∃ string, argument = .string string := by
    intro argument member
    have inHand := inHand argument member
    cases argument with
    | string string => exact .inr ⟨string, rfl⟩
    | exception => exact .inl rfl
    | _ => exact inHand.elim
  refine ⟨trivial, ?_⟩
  rintro answer context ⟨pointer, unused, rfl, rfl⟩
  constructor
  · rw [← count] at countable
    exact countable
  · intro result last moves
    simp only [arrayEffect, ArrayContext.makeArray, Function.update_self] at moves
    change arrayPush _ _ _ (arguments.map middle.element) _ _ at moves
    rw [areMade] at moves
    have samePrototypes : (middle.makeArray pointer).prototypes = before.prototypes :=
      more.prototypes
    have pushed : Pushed before pointer (hitches.map made) last :=
      pushed_of_arrayPush samePrototypes more.diverted moves
    change (forEach jsFreeValue arguments >>= _).Satisfies _ _ _ last
    apply Satisfies.bind
    apply (satisfies_freeArguments given pushed).mono
    intro _ final pushed
    exact ⟨pointer, rfl, pushed⟩

/-! ## Marshalling -/

/-- The element is the string of the bytes; for text, its UTF-16 units. -/
def Spells (bytes : Bytes) (element : Element) : Prop :=
  ∃ string, element = .string string ∧ newStringLen bytes = some string ∧
    ∀ text : List Char, bytes = utf8 text → string.units = utf16 text

/-- The value is an array whose elements are the strings in their order, and
nothing else has taken one of them. -/
def Marshalled (hitches : List Bytes) (before : ArrayContext) (value : JSValue)
    (after : ArrayContext) : Prop :=
  after.diverted = before.diverted ∧
    ∃ pointer elements, value = .object pointer ∧ after.arrays pointer = some elements ∧
      List.Forall₂ Spells hitches elements

/-- There are at most `Int32.max` strings, the engine can make each of them, and
no object along the prototypes of an array decides about their indices. -/
def Marshals (prototypes : List IndexedPrototype) (hitches : List Bytes) : Prop :=
  hitches.length < 2 ^ 31 ∧ (∀ bytes ∈ hitches, (newStringLen bytes).isSome = true) ∧
    ∀ index, index < hitches.length → walkIndex index prototypes = .absent

theorem spells_made {bytes : Bytes} (canBeMade : (newStringLen bytes).isSome = true) :
    Spells bytes (made bytes) := by
  obtain ⟨string, isMade⟩ := Option.isSome_iff_exists.mp canBeMade
  refine ⟨string, by simp [made, isMade], isMade, ?_⟩
  rintro text rfl
  rw [eq_decoded_of_newStringLen isMade]
  exact units_decoded_utf8 text

theorem forall₂_spells_made {hitches : List Bytes}
    (canBeMade : ∀ bytes ∈ hitches, (newStringLen bytes).isSome = true) :
    List.Forall₂ Spells hitches (hitches.map made) := by
  rw [List.forall₂_map_right_iff, List.forall₂_same]
  intro bytes member
  exact spells_made (canBeMade bytes member)

theorem isSome_of_forall₂_spells {hitches : List Bytes} {elements : List Element}
    (spell : List.Forall₂ Spells hitches elements) :
    ∀ bytes ∈ hitches, (newStringLen bytes).isSome = true := by
  induction spell with
  | nil => simp
  | cons spells _ ih =>
      intro bytes member
      rcases List.mem_cons.mp member with rfl | member
      · obtain ⟨string, _, isMade, _⟩ := spells
        rw [isMade]
        rfl
      · exact ih bytes member

theorem satisfies_of_marshals {context : ArrayContext} {hitches : List Bytes}
    (marshals : Marshals context.prototypes hitches) :
    (createArrayJibValue hitches).Satisfies arrayEffect arrayNeeds
      (Marshalled hitches context) context := by
  obtain ⟨countable, canBeMade, absent⟩ := marshals
  apply (satisfies_createArrayJibValue countable context).mono
  rintro value after ⟨pointer, rfl, pushed⟩
  have pushes : pushElements context.prototypes [] (hitches.map made) =
      some (true, hitches.map made) := by
    apply pushElements_of_absent
    simpa using absent
  rw [Pushed, pushes] at pushed
  exact ⟨pushed.2, pointer, _, rfl, pushed.1, forall₂_spells_made canBeMade⟩

/-- Where the arguments do not fit an `Int32` the conversion stops. -/
theorem countable_of_satisfies {context : ArrayContext} {hitches : List Bytes}
    {post : JSValue → ArrayContext → Prop}
    (satisfies : (createArrayJibValue hitches).Satisfies arrayEffect arrayNeeds post context) :
    hitches.length < 2 ^ 31 := by
  obtain ⟨arguments, middle, yields⟩ :=
    exists_yields arrayEffect_total (mapEach jsNewStringLen hitches) context
  obtain ⟨_, areMade, _⟩ := (satisfies_strings hitches context).of_yields yields
  have count : arguments.length = hitches.length := by
    simpa using congrArg List.length areMade
  have rest := satisfies.of_bind.of_yields yields
  have pushNeeds := (rest.2 (.object middle.next) _ ⟨_, le_rfl, rfl, rfl⟩).1
  rw [← count]
  exact pushNeeds

theorem marshals_of_satisfies {context : ArrayContext} {hitches : List Bytes}
    (satisfies : (createArrayJibValue hitches).Satisfies arrayEffect arrayNeeds
      (Marshalled hitches context) context) :
    Marshals context.prototypes hitches := by
  have countable := countable_of_satisfies satisfies
  obtain ⟨value, after, yields⟩ :=
    exists_yields arrayEffect_total (createArrayJibValue hitches) context
  obtain ⟨undiverted, pointer, elements, isPointer, areElements, spell⟩ :=
    satisfies.of_yields yields
  obtain ⟨other, isOther, pushed⟩ :=
    (satisfies_createArrayJibValue countable context).of_yields yields
  obtain rfl : other = pointer := by
    rw [isPointer] at isOther
    cases isOther
    rfl
  refine ⟨countable, isSome_of_forall₂_spells spell, ?_⟩
  unfold Pushed at pushed
  split at pushed
  · rename_i whole pushedElements pushes
    rw [areElements] at pushed
    obtain rfl : elements = pushedElements := Option.some.inj pushed.1
    intro index below
    apply (pushElements_elements pushes).2 index (Nat.zero_le index)
    rwa [← spell.length_eq]
  · rw [undiverted] at pushed
    exact (lt_irrefl _ pushed).elim

/-- `[Hitch].createJibValue` makes the array of its strings exactly when there
are not too many, each can be made, and the prototypes of arrays have nothing at
their indices that decides instead. -/
theorem createArrayJibValue_marshals_iff (context : ArrayContext) (hitches : List Bytes) :
    (createArrayJibValue hitches).Satisfies arrayEffect arrayNeeds
        (Marshalled hitches context) context ↔
      Marshals context.prototypes hitches :=
  ⟨marshals_of_satisfies, satisfies_of_marshals⟩

/-- `Array.prototype` once a script has defined a setter for index 0. -/
def prototypeWithSetter : IndexedPrototype where
  own index := if index = 0 then some (.getSet (some (.object 1))) else none
  exotic := .none
  kind := .array false
  describes := rfl

/-- A context whose `Array.prototype` has a setter for index 0. -/
def contextWithSetter : ArrayContext where
  prototypes := [prototypeWithSetter]
  next := 2
  strings _ := none
  arrays _ := none
  diverted := 0

theorem setter_takes_element :
    ¬ (createArrayJibValue ["a".toUTF8.toList]).Satisfies arrayEffect arrayNeeds
      (Marshalled ["a".toUTF8.toList] contextWithSetter) contextWithSetter := by
  intro satisfies
  obtain ⟨_, _, absent⟩ := marshals_of_satisfies satisfies
  exact absurd (absent 0 (by decide)) (by decide)

end Jib.QuickJS
