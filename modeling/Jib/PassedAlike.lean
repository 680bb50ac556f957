import Jib.JSCPassing
import Jib.QuickJSPassing

/-!
# Swift values that the two backends pass alike

A script gets the same values from both backends exactly if none of them is
`nil` or a `UInt` and every string is read to its end.
-/

namespace Jib

open BinaryNumbers CommandProgram Program UnicodeText

variable {F : Type}

/-- Both calls are made, with the same values. -/
def CalledAlike (calls jscCalls : List (List (Option (Content F)))) : Prop :=
  ∃ contents : List (Content F), calls = [contents.map some] ∧ jscCalls = [contents.map some]

/-- Both callbacks return the same value. -/
def ReturnedAlike (returned jscReturned : Option (Content F)) : Prop :=
  ∃ content, returned = some content ∧ jscReturned = some content

/-- Arguments are passed alike exactly if `Int32(_:)` can count them and each is one that
passes alike.  Of strings that are not UTF-8 only one direction is known. -/
structure AlikeIff (alike counted : Prop) (arguments : List (Option (SwiftArgument F))) :
    Prop where
  enough : counted → (∀ argument ∈ arguments, PassesAlike argument) → alike
  needed : alike →
    counted ∧ ∀ argument ∈ arguments, IsRegular argument → PassesAlike argument

/-- The arguments of a call and the result of a body are passed without a trap and alike
exactly if they are less than `2 ^ 31` and pass alike, wherever arrays can be pushed onto in
QuickJS. -/
theorem alikeIff_passed {State JSCState : Type} {handle : Handler QuickJS.interface State}
    {contentOf : State → QuickJS.JSValue → Option (Content F)}
    {Owned : State → QuickJS.OwnedValues F → Prop} {Plain : State → Prop}
    {jscHandle : Handler JSC.interface JSCState}
    {jscContentOf : JSCState → JSC.JSValueRef → Option (Content F)} {jib : JSC.JibFields}
    (passes : QuickJS.PassesValues handle contentOf Owned Plain)
    (jscPasses : JSC.PassesValues jscHandle jscContentOf jib.context) :
    (∀ arguments state owned jscState function jscFunction,
      QuickJS.CanPass Owned Plain arguments state owned →
        (jscHandle .readReleased jscState).1 = false →
        JSC.Wraps jscContentOf arguments jscState → JSC.HasBooleans jscContentOf jib jscState →
          AlikeIff
            ((QuickJS.callJSValue function
                (arguments.map (Option.map SwiftArgument.quickJS))).Always handle
                  (fun _ => QuickJS.Command.CountFits) state ∧
              CalledAlike
                ((QuickJS.callJSValue function
                    (arguments.map (Option.map SwiftArgument.quickJS))).shows
                  (QuickJS.calledWith contentOf) handle state)
                ((JSC.callJSValue jib jscFunction
                    (arguments.map (Option.map SwiftArgument.jsc))).shows
                  (JSC.calledWith jscContentOf) jscHandle jscState))
            (arguments.length < 2 ^ 31) arguments) ∧
      ∀ bodyOf magic body jscBody values jscValues start jscStart
          (result : Option (SwiftArgument F)) state owned jscState,
        bodyOf magic = some body →
        (QuickJS.invokeBody body values).run handle start =
          (result.map SwiftArgument.quickJS, state) →
        (JSC.invokeBody jib.context jscBody jscValues).run jscHandle jscStart =
          (result.map SwiftArgument.jsc, jscState) →
        QuickJS.CanPass Owned Plain [result] state owned →
        JSC.Wraps jscContentOf [result] jscState →
          AlikeIff
            ((QuickJS.callbackResult (result.map SwiftArgument.quickJS)).Always handle
                (fun _ => QuickJS.Command.CountFits) state ∧
              ReturnedAlike
                (QuickJS.returned handle contentOf (QuickJS.callback bodyOf magic values) start)
                (JSC.returned jscHandle jscContentOf
                  (JSC.callbackRun jib.context jscBody jscValues) jscStart))
            True [result] := by
  constructor
  · intro arguments state owned jscState function jscFunction ready alive wraps booleans
    obtain ⟨received, areReceived, calls⟩ := QuickJS.shows_callJSValue passes ready function
    obtain ⟨jscReceived, areJSCReceived, jscCalls⟩ :=
      JSC.shows_callJSValue jscPasses alive wraps booleans jscFunction
    obtain ⟨enough, needed⟩ := received_alike areReceived areJSCReceived
    rw [calls, jscCalls, QuickJS.always_callJSValue_iff]
    constructor
    · intro counted passesAll
      obtain ⟨contents, rfl, rfl⟩ := enough passesAll
      exact ⟨⟨counted, fun argument member => (passesAll argument member).countable⟩,
        contents, rfl, rfl⟩
    · rintro ⟨⟨counted, countable⟩, contents, isReceived, isJSCReceived⟩
      exact ⟨counted, needed contents (List.singleton_inj.mp isReceived)
        (List.singleton_inj.mp isJSCReceived) countable⟩
  · intro bodyOf magic body jscBody values jscValues start jscStart result state owned jscState
      isBody ends jscEnds ready wraps
    have received := QuickJS.receives_callback passes isBody ends ready
    have jscReceived := JSC.receives_callbackRun jscPasses jscEnds wraps
    rw [QuickJS.callbackResult_eq, QuickJS.always_convertArgument_iff]
    constructor
    · intro _ passesOne
      have passesResult := passesOne result List.mem_cons_self
      exact ⟨passesResult.countable, passesResult.exists_content received jscReceived⟩
    · rintro ⟨countable, content, isReceived, isJSCReceived⟩
      refine ⟨trivial, fun argument member regular => ?_⟩
      obtain rfl := List.mem_singleton.mp member
      rw [isReceived] at received
      rw [isJSCReceived] at jscReceived
      exact passesAlike_of_received countable regular received jscReceived

/-! ## Engines that keep what they make -/

namespace QuickJS

/-- The tag of a value is that of what is behind it. -/
def JSValue.suits : JSValue → Content F → Bool
  | .bigInt _, .bigInt _ => true
  | .string _, .string _ => true
  | .object _, .array _ => true
  | .object _, .function _ => true
  | _, _ => false

/-- What is behind a value, if pointers are positions in a list. -/
def listedContent (contents : List (Content F)) (value : JSValue) : Option (Content F) :=
  match value.pointer? with
  | some pointer => (contents[pointer]?).filter value.suits
  | none => value.immediate

/-- An engine whose state is the list of what it has made; nothing is freed. -/
def contentsHandle : Handler interface (List (Content F))
  | .jsDupValue value, contents => (value, contents)
  | .jsNewStringLen bytes, contents =>
      match newStringLen bytes with
      | some string => (.string contents.length, contents ++ [.string string.units])
      | none => (.exception, contents)
  | .jsNewBigUint64 value, contents => (.bigInt contents.length, contents ++ [.bigInt value])
  | .jsNewArray, contents => (.object contents.length, contents ++ [.array []])
  | .jsArrayPush (.object pointer) values, contents =>
      (.int values.length,
        contents.set pointer (.array (values.map (elementUnits listedContent contents))))
  | command, contents => (constantAnswer .undefined command, contents)

/-- What is behind the pointers. -/
def Lists (contents : List (Content F)) (owned : OwnedValues F) : Prop :=
  ∀ entry ∈ owned, entry.1.pointer?.isSome = true ∧ listedContent contents entry.1 = some entry.2

theorem listedContent_eq_some_iff {contents : List (Content F)} {value : JSValue}
    {pointer : Address} (isPointer : value.pointer? = some pointer) {content : Content F} :
    listedContent contents value = some content ↔
      contents[pointer]? = some content ∧ value.suits content = true := by
  simp [listedContent, isPointer, Option.filter_eq_some_iff]

theorem object_of_suits {value : JSValue} {pointer : Address}
    {elements : List (Option (List UInt16))} (isPointer : value.pointer? = some pointer)
    (suits : value.suits (.array elements : Content F) = true) : value = .object pointer := by
  cases value with
  | object other => exact congrArg JSValue.object (Option.some.inj isPointer)
  | _ => cases suits

theorem Lists.append {contents : List (Content F)} {owned : OwnedValues F}
    (lists : Lists contents owned) (content : Content F) : Lists (contents ++ [content]) owned := by
  intro entry member
  obtain ⟨hasPointer, isContent⟩ := lists entry member
  obtain ⟨pointer, isPointer⟩ := Option.isSome_iff_exists.mp hasPointer
  rw [listedContent_eq_some_iff isPointer] at isContent ⊢
  exact ⟨hasPointer, List.getElem?_append_left
    (List.getElem?_eq_some_iff.mp isContent.1).1 ▸ isContent.1, isContent.2⟩

theorem Lists.cons {contents : List (Content F)} {owned : OwnedValues F}
    (lists : Lists contents owned) {value : JSValue} {content : Content F}
    (isPointer : value.pointer? = some contents.length) (suits : value.suits content = true) :
    Lists (contents ++ [content]) ((value, content) :: owned) := by
  intro entry member
  rcases List.mem_cons.mp member with rfl | member
  · refine ⟨by simp [isPointer], (listedContent_eq_some_iff isPointer).mpr ⟨?_, suits⟩⟩
    simp
  · exact lists.append content entry member

theorem passesValues_contentsHandle :
    PassesValues contentsHandle (listedContent (F := F)) Lists (fun _ => True) where
  immediate := by
    intro contents value noPointer
    simp [listedContent, noPointer]
  keeps := fun contents owned value content lists member => (lists _ member).2
  perm := fun contents owned other lists perm entry member => lists entry (perm.mem_iff.mpr member)
  dupValue := fun contents owned value content lists member => ⟨rfl, fun entry isEntry =>
    (List.mem_cons.mp isEntry).elim (fun same => same ▸ lists _ member) (lists entry)⟩
  newString := by
    intro contents owned bytes string lists isMade
    simp only [contentsHandle, isMade]
    exact lists.cons rfl rfl
  tooLong := by
    intro contents owned bytes lists notMade
    simp only [contentsHandle, notMade]
    exact ⟨trivial, lists⟩
  newBigUint64 := fun contents owned value lists => lists.cons rfl rfl
  newArray := by
    intro contents owned lists
    refine ⟨fun content member => ?_, lists.cons rfl rfl⟩
    have isContent := ((listedContent_eq_some_iff rfl).mp (lists _ member).2).1
    have inside := (List.getElem?_eq_some_iff.mp isContent).1
    exact Nat.lt_irrefl _ inside
  arrayPush := by
    intro contents owned array values _ lists fresh
    obtain ⟨isSome, isArray⟩ := lists (array, .array []) List.mem_cons_self
    obtain ⟨pointer, isPointer⟩ := Option.isSome_iff_exists.mp isSome
    obtain ⟨isEmpty, suits⟩ := (listedContent_eq_some_iff isPointer).mp isArray
    obtain rfl := object_of_suits isPointer suits
    have inside := (List.getElem?_eq_some_iff.mp isEmpty).1
    refine ⟨_, ?_, fun _ => rfl⟩
    intro entry member
    rcases List.mem_cons.mp member with rfl | member
    · refine ⟨rfl, (listedContent_eq_some_iff rfl).mpr ⟨?_, rfl⟩⟩
      exact List.getElem?_set_self inside
    · obtain ⟨hasPointer, isContent⟩ := lists entry (List.mem_cons_of_mem _ member)
      obtain ⟨other, isOther⟩ := Option.isSome_iff_exists.mp hasPointer
      rw [listedContent_eq_some_iff isOther] at isContent ⊢
      have isElsewhere : pointer ≠ other := by
        rintro rfl
        obtain ⟨value, content⟩ := entry
        obtain rfl := object_of_suits isOther
          (Option.some.inj (isContent.1.symm.trans isEmpty) ▸ isContent.2)
        exact fresh content member
      exact ⟨hasPointer, (List.getElem?_set_ne isElsewhere).trans isContent.1, isContent.2⟩
  freeValue := fun contents owned value content lists entry member =>
    lists entry (List.mem_cons_of_mem _ member)
  freeException := fun contents owned lists => lists
  plain := fun _ _ _ _ => trivial

end QuickJS

namespace JSC

/-- What is behind a value, if references are positions in a list. -/
def listedContent (contents : List (Content F)) (value : JSValueRef) : Option (Content F) :=
  contents[value]?

/-- An engine whose state is the list of what it has made. -/
def contentsHandle : Handler interface (List (Content F))
  | .jsValueMakeUndefined _, contents => (contents.length, contents ++ [.undefined])
  | .jsValueMakeBoolean _ value, contents => (contents.length, contents ++ [.boolean value])
  | .jsValueMakeNumber _ number, contents =>
      (contents.length, contents ++ [.number (jsNumber number)])
  | .jsValueMakeString _ string, contents =>
      (some contents.length, contents ++ [.string (QuickJS.decoded string.text).units])
  | .jsObjectMakeArray _ values, contents =>
      (some contents.length,
        contents ++ [.array (values.map (elementUnits listedContent contents))])
  | command, contents => (emptyAnswer command, contents)

theorem passesValues_contentsHandle (context : JSGlobalContextRef) :
    PassesValues contentsHandle (listedContent (F := F)) context where
  keeps := by
    intro command contents value content _ isContent
    have appended : ∀ made : Content F, listedContent (contents ++ [made]) value = some content :=
      fun made => (List.getElem?_append_left (List.getElem?_eq_some_iff.mp isContent).1).trans
        isContent
    cases command <;> first | exact isContent | exact appended _
  createString := fun text contents => ⟨0, rfl⟩
  makeString := by
    intro string contents
    refine ⟨contents.length, _, rfl, List.getElem?_concat_length, ?_⟩
    intro text isText
    rw [isText, QuickJS.units_decoded_utf8]
  makeUndefined := fun contents => List.getElem?_concat_length
  makeBoolean := fun boolean contents => List.getElem?_concat_length
  makeNumber := fun number contents => List.getElem?_concat_length
  makeArray := fun values contents _ => ⟨contents.length, rfl, List.getElem?_concat_length⟩
  madeArray := by
    rintro values contents array ⟨⟩
    refine ⟨_, List.getElem?_concat_length, ?_⟩
    intro elements isArray
    exact (Content.array.inj isArray).symm

/-- A `Jib` whose booleans are the first values of the engine. -/
def listedJib : JibFields := ⟨0, 0, 0, 0, 1, 0⟩

def listedBooleans : List (Content F) := [.boolean false, .boolean true]

theorem hasBooleans_listedBooleans :
    HasBooleans (listedContent (F := F)) listedJib listedBooleans :=
  ⟨rfl, rfl⟩

end JSC

/-- Two new engines call a function alike, and QuickJS without a trap. -/
def CallsAlike (arguments : List (Option (SwiftArgument Unit))) : Prop :=
  (QuickJS.callJSValue ⟨.object 0, none⟩
      (arguments.map (Option.map SwiftArgument.quickJS))).Always
    (QuickJS.contentsHandle (F := Unit)) (fun _ => QuickJS.Command.CountFits) [] ∧
  CalledAlike
    ((QuickJS.callJSValue ⟨.object 0, none⟩
        (arguments.map (Option.map SwiftArgument.quickJS))).shows
      (QuickJS.calledWith (QuickJS.listedContent (F := Unit))) QuickJS.contentsHandle [])
    ((JSC.callJSValue JSC.listedJib ⟨0, some 0, none⟩
        (arguments.map (Option.map SwiftArgument.jsc))).shows
      (JSC.calledWith JSC.listedContent) JSC.contentsHandle JSC.listedBooleans)

/-- `nil` is `undefined` in QuickJS and a `NULL` in JavaScriptCore; a `UInt` is a
`BigInt` and a number. -/
theorem not_callsAlike_nil_uint : ¬CallsAlike [none] ∧ ¬CallsAlike [some (.uint 1)] := by
  constructor
  · rintro ⟨-, contents, calls, jscCalls⟩
    have isUndefined : [some Content.undefined] = contents.map some := List.singleton_inj.mp calls
    rw [← isUndefined] at jscCalls
    exact absurd jscCalls (by decide +kernel)
  · rintro ⟨-, contents, calls, jscCalls⟩
    have isBigInt : [some (Content.bigInt 1)] = contents.map some := List.singleton_inj.mp calls
    rw [← isBigInt] at jscCalls
    exact absurd jscCalls (by decide +kernel)

/-- An array, a `UInt`, a `Bool` and `nil`. -/
def someArguments : List (Option (SwiftArgument Unit)) :=
  [some (.hitchArray [.ofBytes [97]]), some (.uint 1), some (.bool true), none]

theorem alikeIff_passed_some :
    AlikeIff (CallsAlike someArguments) (someArguments.length < 2 ^ 31) someArguments := by
  have noFunctions : ∀ identity quickJS jsc,
      some (SwiftArgument.function identity quickJS jsc) ∉ someArguments := by
    simp [someArguments]
  exact (alikeIff_passed QuickJS.passesValues_contentsHandle
    (JSC.passesValues_contentsHandle _)).1 someArguments [] [] JSC.listedBooleans _ _
    ⟨by simp [QuickJS.Lists], fun _ _ _ member => (noFunctions _ _ _ member).elim,
      fun _ _ => trivial⟩
    rfl (fun _ _ _ member => (noFunctions _ _ _ member).elim) JSC.hasBooleans_listedBooleans

end Jib
