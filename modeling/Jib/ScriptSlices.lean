import Jib.JSCPublicOperations
import Jib.QuickJSPublicOperations
import Jib.SliceBuffers
import Mathlib.Data.List.Forall2

/-!
# The scripts that are handed to the engines

An evaluation hands a pointer to the engine, QuickJS together with a length;
JavaScriptCore reads up to the first NUL.  Whatever surrounds a slice, the
engine is handed the text of the slice and a NUL.
-/

namespace Jib

open CommandProgram Program

/-- The memory behind each pointer that is handed over starts with the text and
a NUL, and the length is that of the text. -/
abbrev HandsExactly (texts : List Bytes) (handed : List (Bytes × Nat)) : Prop :=
  List.Forall₂ (fun text given => text ++ [0] <+: given.1 ∧ given.2 = text.length) texts handed

/-- The texts that are read at the pointers. -/
def textsOf (handed : List (Bytes × Nat)) : List Bytes :=
  handed.map fun given => given.1.take given.2

theorem HandsExactly.textsOf_eq {texts : List Bytes} {handed : List (Bytes × Nat)}
    (exactly : HandsExactly texts handed) : textsOf handed = texts := by
  induction exactly with
  | nil => rfl
  | cons first _ ih =>
      obtain ⟨⟨rest, memory⟩, length⟩ := first
      rw [textsOf, List.map_cons, length, ← memory, List.append_assoc, List.take_left]
      exact congrArg _ ih

/-- The memory and length of a slice. -/
def Slice.handed (slice : Slice) (buffers : Buffers) : Bytes × Nat :=
  (slice.memory buffers, slice.count)

/-- The memory of a slice, and where a C function stops to read. -/
def Slice.handedCString (slice : Slice) (buffers : Buffers) : Bytes × Nat :=
  (slice.memory buffers, (cString (slice.memory buffers)).length)

/-! ## Buffers of QuickJS -/

namespace QuickJS

/-- What `eval` hands over, and the buffers then. -/
def evalHanded (slice : Slice) (buffers : Buffers) : List (Bytes × Nat) × Buffers :=
  let (script, after) := slice.nullTerminated buffers
  ([script.handed after], after)

/-- What the attempts of `resolve` hand over, and the buffers then. -/
def resolveHanded (slice : Slice) (buffers : Buffers) : List (Bytes × Nat) × Buffers :=
  let (modifiedHitch, made) := slice.parenthesized buffers
  let (modified, between) := modifiedHitch.nullTerminated made
  let (script, after) := slice.nullTerminated between
  ([modified.handed between, script.handed after], after)

end QuickJS

/-! ## Buffers of JavaScriptCore -/

namespace JSC

/-- What `Hitch.jsString` hands over. -/
def hitchHanded (hitch : Storage) (buffers : Buffers) : List (Bytes × Nat) :=
  if hitch.halfhitch.following buffers = 0 then [hitch.halfhitch.handedCString buffers] else []

/-- What `HalfHitch.jsString` hands over, and the buffers then. -/
def evalHanded (slice : Slice) (buffers : Buffers) : List (Bytes × Nat) × Buffers :=
  if slice.following buffers = 0 then ([slice.handedCString buffers], buffers)
  else
    let (copy, after) := slice.hitch buffers
    (hitchHanded copy after, after)

/-- What the first attempt of `resolve` hands over as a name, and the buffers
then. -/
def nameHanded (slice : Slice) (buffers : Buffers) : List (Bytes × Nat) × Buffers :=
  if slice.count < 128 then evalHanded slice buffers else ([], buffers)

/-- What the attempts of `resolve` hand over, and the buffers then. -/
def resolveHanded (slice : Slice) (buffers : Buffers) : List (Bytes × Nat) × Buffers :=
  let (name, named) := nameHanded slice buffers
  let (modifiedHitch, made) := slice.parenthesized named
  let (script, after) := evalHanded slice made
  (name ++ (hitchHanded modifiedHitch made ++ script), after)

end JSC

/-! ## What is handed over -/

section

variable {slice : Slice} {buffers : Buffers} (readable : slice.Readable buffers)
include readable

theorem Slice.prefix_nullTerminated :
    slice.bytes buffers ++ [0] <+:
      (slice.nullTerminated buffers).1.memory (slice.nullTerminated buffers).2 := by
  obtain ⟨_, same⟩ := Slice.nullTerminated_eq readable
  have hasMemory := congrArg HalfHitch.raw same
  have isPrefix := HalfHitch.prefix_of_following hasMemory.symm
    (HalfHitch.following_nullTerminated _)
  rw [HalfHitch.bytes_nullTerminated] at isPrefix
  exact isPrefix

theorem Slice.count_nullTerminated :
    (slice.nullTerminated buffers).1.count = (slice.bytes buffers).length := by
  obtain ⟨_, same⟩ := Slice.nullTerminated_eq readable
  have hasMemory := congrArg HalfHitch.raw same
  have lengthBytes := HalfHitch.length_bytes hasMemory.symm
  have sameCount := congrArg HalfHitch.count same
  rw [HalfHitch.bytes_nullTerminated] at lengthBytes
  exact sameCount.trans lengthBytes.symm

theorem QuickJS.handsExactly_eval :
    HandsExactly [slice.bytes buffers] (QuickJS.evalHanded slice buffers).1 :=
  .cons ⟨Slice.prefix_nullTerminated readable, Slice.count_nullTerminated readable⟩ .nil

end

/-- The text in parentheses, in the buffer that was made for it. -/
theorem Slice.prefix_parenthesized (slice : Slice) (buffers : Buffers) :
    (slice.parenthesized buffers).1.halfhitch.memory (slice.parenthesized buffers).2 =
      Hitch.parenthesizedText (.ofBytes (slice.bytes buffers)) ++ [0] := by
  simp [Slice.parenthesized, Storage.halfhitch, memory_append]

theorem Slice.keeps_parenthesized (slice : Slice) (buffers : Buffers) :
    buffers.Keeps (slice.parenthesized buffers).2 :=
  buffers.keeps_append _

theorem Slice.readable_of_keeps {slice : Slice} {buffers after : Buffers}
    (keeps : buffers.Keeps after) (readable : slice.Readable buffers) : slice.Readable after := by
  rw [Slice.Readable, Slice.memory_of_keeps keeps readable]
  exact readable

theorem Slice.bytes_of_keeps {slice : Slice} {buffers after : Buffers}
    (keeps : buffers.Keeps after) (readable : slice.Readable buffers) :
    slice.bytes after = slice.bytes buffers := by
  rw [Slice.bytes, Slice.memory_of_keeps keeps readable, Slice.bytes]

theorem QuickJS.keeps_eval {slice : Slice} {buffers : Buffers}
    (readable : slice.Readable buffers) : buffers.Keeps (QuickJS.evalHanded slice buffers).2 :=
  Slice.keeps_nullTerminated readable

theorem QuickJS.resolveHanded_eq (slice : Slice) (buffers : Buffers) :
    QuickJS.resolveHanded slice buffers =
      ((slice.parenthesized buffers).1.halfhitch.handed (slice.parenthesized buffers).2 ::
          (QuickJS.evalHanded slice (slice.parenthesized buffers).2).1,
        (QuickJS.evalHanded slice (slice.parenthesized buffers).2).2) := by
  simp only [QuickJS.resolveHanded, Slice.nullTerminated_parenthesized]
  rfl

theorem QuickJS.handsExactly_resolve {slice : Slice} {buffers : Buffers}
    (readable : slice.Readable buffers) :
    HandsExactly [Hitch.parenthesizedText (.ofBytes (slice.bytes buffers)), slice.bytes buffers]
      (QuickJS.resolveHanded slice buffers).1 := by
  have keeps := slice.keeps_parenthesized buffers
  have script := QuickJS.handsExactly_eval (Slice.readable_of_keeps keeps readable)
  rw [Slice.bytes_of_keeps keeps readable] at script
  rw [QuickJS.resolveHanded_eq]
  refine .cons ⟨?_, rfl⟩ script
  rw [← Slice.prefix_parenthesized]
  exact List.prefix_rfl

theorem QuickJS.keeps_resolve {slice : Slice} {buffers : Buffers}
    (readable : slice.Readable buffers) :
    buffers.Keeps (QuickJS.resolveHanded slice buffers).2 := by
  have keeps := slice.keeps_parenthesized buffers
  rw [QuickJS.resolveHanded_eq]
  apply keeps.trans (QuickJS.keeps_eval (Slice.readable_of_keeps keeps readable))
  simp [Slice.parenthesized]

namespace JSC

variable {slice : Slice} {buffers : Buffers}

/-- Where text and a NUL come first, a C function reads the text. -/
theorem handed_of_prefix {text memory : Bytes} (isPrefix : text ++ [0] <+: memory)
    (noNul : 0 ∉ text) : cString memory = text := by
  obtain ⟨rest, rfl⟩ := isPrefix
  rw [List.append_assoc, cString, List.takeWhile_append_of_pos]
  · simp
  · intro byte member
    simpa using fun isNul : byte = 0 => noNul (isNul ▸ member)

theorem hitchHanded_append (buffers : Buffers) (text : Bytes) (noNul : 0 ∉ text) :
    HandsExactly [text]
      (hitchHanded ⟨buffers.length, text.length, true⟩ (buffers ++ [text ++ [0]])) := by
  have memory := memory_append buffers (text ++ [0]) text.length
  have isNul : (Storage.mk buffers.length text.length true).halfhitch.following
      (buffers ++ [text ++ [0]]) = 0 := by
    simp [Storage.halfhitch, Slice.following, memory]
  rw [hitchHanded, if_pos isNul]
  refine .cons ⟨?_, ?_⟩ .nil
  · simp [Slice.handedCString, Storage.halfhitch, memory]
  · simp [Slice.handedCString, Storage.halfhitch, memory, cString_of_noNul noNul]

theorem handsExactly_eval (readable : slice.Readable buffers)
    (noNul : 0 ∉ slice.bytes buffers) :
    HandsExactly [slice.bytes buffers] (evalHanded slice buffers).1 := by
  unfold evalHanded
  split
  · rename_i terminated
    have isPrefix := Slice.prefix_of_following readable terminated
    refine .cons ⟨isPrefix, ?_⟩ .nil
    simp [Slice.handedCString, handed_of_prefix isPrefix noNul]
  · have copied := hitchHanded_append buffers _ noNul
    rw [Slice.length_bytes readable] at copied
    exact copied

theorem keeps_eval (slice : Slice) (buffers : Buffers) :
    buffers.Keeps (evalHanded slice buffers).2 := by
  unfold evalHanded
  split
  · exact buffers.keeps_refl
  · exact buffers.keeps_append _

theorem keeps_name (slice : Slice) (buffers : Buffers) :
    buffers.Keeps (nameHanded slice buffers).2 := by
  unfold nameHanded
  split
  · exact keeps_eval slice buffers
  · exact buffers.keeps_refl

theorem length_le_name (slice : Slice) (buffers : Buffers) :
    buffers.length ≤ (nameHanded slice buffers).2.length := by
  unfold nameHanded evalHanded
  split
  · split
    · exact le_rfl
    · simp [Slice.hitch]
  · exact le_rfl

/-- The texts that the attempts of `resolve` hand over, the name first. -/
def resolveTexts (text : Bytes) : List Bytes :=
  (if text.length < 128 then [text] else []) ++
    [Hitch.parenthesizedText (.ofBytes text), text]

theorem noNul_parenthesizedText {text : Bytes} (noNul : 0 ∉ text) :
    0 ∉ Hitch.parenthesizedText (.ofBytes text) := by
  simpa [Hitch.parenthesizedText] using noNul

theorem keeps_made (slice : Slice) (buffers : Buffers) :
    buffers.Keeps (slice.parenthesized (nameHanded slice buffers).2).2 :=
  (keeps_name slice buffers).trans (slice.keeps_parenthesized _) (length_le_name slice buffers)

theorem keeps_resolve (slice : Slice) (buffers : Buffers) :
    buffers.Keeps (resolveHanded slice buffers).2 := by
  apply (keeps_made slice buffers).trans (keeps_eval slice _)
  simpa [Slice.parenthesized] using (length_le_name slice buffers).trans (Nat.le_succ _)

section

variable (readable : slice.Readable buffers)
include readable

theorem handsExactly_name (noNul : 0 ∉ slice.bytes buffers) :
    HandsExactly (if (slice.bytes buffers).length < 128 then [slice.bytes buffers] else [])
      (nameHanded slice buffers).1 := by
  rw [Slice.length_bytes readable, nameHanded]
  split
  · exact handsExactly_eval readable noNul
  · exact .nil

theorem handsExactly_resolve (noNul : 0 ∉ slice.bytes buffers) :
    HandsExactly (resolveTexts (slice.bytes buffers)) (resolveHanded slice buffers).1 := by
  have named := Slice.bytes_of_keeps (keeps_name slice buffers) readable
  have kept := keeps_made slice buffers
  have made := Slice.bytes_of_keeps kept readable
  have modified : HandsExactly [Hitch.parenthesizedText (.ofBytes (slice.bytes buffers))]
      (hitchHanded (slice.parenthesized (nameHanded slice buffers).2).1
        (slice.parenthesized (nameHanded slice buffers).2).2) := by
    rw [← named] at noNul ⊢
    exact hitchHanded_append _ _ (noNul_parenthesizedText noNul)
  have script : HandsExactly [slice.bytes buffers]
      (evalHanded slice (slice.parenthesized (nameHanded slice buffers).2).2).1 := by
    rw [← made] at noNul ⊢
    exact handsExactly_eval (Slice.readable_of_keeps kept readable) noNul
  exact List.rel_append (handsExactly_name readable noNul) (List.rel_append modified script)

end

end JSC

/-! ## What the operations hand over: QuickJS -/

namespace QuickJS

/-- The script that a command evaluates, as pointer and length. -/
@[simp]
def Command.script? : Command → Option (Bytes × Nat)
  | .jsEval input inputLength => some (input, inputLength)
  | _ => none

/-- No command evaluates. -/
abbrev Silent {α : Type} (program : Operation α) : Prop :=
  program.Uses fun command : Command => command.script? = none

theorem Quiet.silent {α : Type} {program : Operation α} (quiet : Quiet program) :
    Silent program :=
  Uses.mono quiet fun command isQuiet => by
    cases command <;> first | rfl | cases isQuiet

theorem silent_recordIf (value : JSValue) : Silent (recordIf value) := by
  unfold recordIf
  split
  · refine ⟨rfl, ?_⟩
    intro exceptionValue
    exact (reading_exceptionHitch exceptionValue).quiet.silent.bind fun _ => by simp
  · trivial

/-- What is handed over for a script. -/
def handedOf (script : HalfHitch) : Bytes × Nat :=
  (script.nullTerminated.raw.getD [], script.nullTerminated.count)

variable {State : Type} (handle : Handler interface State)

theorem hands_evalScript {script : HalfHitch} (hasMemory : script.raw.isSome = true)
    (state : State) :
    (evalScript script.nullTerminated).shows (fun _ => Command.script?) handle state =
      [handedOf script] := by
  rw [← HalfHitch.isSome_raw_nullTerminated] at hasMemory
  obtain ⟨memory, isMemory⟩ := Option.isSome_iff_exists.mp hasMemory
  rw [evalScript, handedOf, isMemory]
  rfl

theorem hands_eval {script : HalfHitch} (hasMemory : script.raw.isSome = true)
    (state : State) :
    (eval script).shows (fun _ => Command.script?) handle state = [handedOf script] := by
  rw [eval, shows_locked, shows_bind, hands_evalScript handle hasMemory]
  refine congrArg _ (Uses.shows_eq_nil_of_command ?_ handle _)
  split
  · apply (silent_recordIf _).bind
    intro recorded
    cases recorded <;> simp
  · trivial

/-- `resolve` as its evaluations. -/
theorem resolve_eq (script : HalfHitch) :
    resolve script =
      .call (.jsEval (Hitch.parenthesizedText script ++ [0])
        (Hitch.parenthesizedText script).length) fun modifiedValue =>
          if modifiedValue.isException then evalScript script.nullTerminated
          else .done (some modifiedValue) := by
  simp only [resolve, Hitch.parenthesized, Hitch.nullTerminated_ofBytes]
  rfl

/-- The evaluations that `resolve` makes: the second one if the first one throws. -/
def attemptCount (script : HalfHitch) (state : State) : Nat :=
  if (handle (.jsEval (Hitch.parenthesizedText script ++ [0])
      (Hitch.parenthesizedText script).length) state).1.isException then 2 else 1

theorem hands_resolve {script : HalfHitch} (hasMemory : script.raw.isSome = true)
    (state : State) :
    (resolve script).shows (fun _ => Command.script?) handle state =
      List.take (attemptCount handle script state)
        [(Hitch.parenthesizedText script ++ [0], (Hitch.parenthesizedText script).length),
          handedOf script] := by
  rw [resolve_eq, shows_call, attemptCount]
  split
  · rw [hands_evalScript handle hasMemory]
    rfl
  · rfl

/-- What a slice hands over depends on its own memory only. -/
theorem evalHanded_eq {slice : Slice} {buffers : Buffers} (readable : slice.Readable buffers) :
    (evalHanded slice buffers).1 = [handedOf (slice.halfHitch buffers readable)] := by
  obtain ⟨_, same⟩ := Slice.nullTerminated_eq readable
  rw [handedOf, ← same]
  rfl

theorem resolveHanded_eq_handedOf {slice : Slice} {buffers : Buffers}
    (readable : slice.Readable buffers) :
    (resolveHanded slice buffers).1 =
      [(Hitch.parenthesizedText (slice.halfHitch buffers readable) ++ [0],
          (Hitch.parenthesizedText (slice.halfHitch buffers readable)).length),
        handedOf (slice.halfHitch buffers readable)] := by
  have keeps := slice.keeps_parenthesized buffers
  have made := Slice.readable_of_keeps keeps readable
  have same : slice.halfHitch (slice.parenthesized buffers).2 made =
      slice.halfHitch buffers readable := by
    simp only [Slice.halfHitch, Slice.memory_of_keeps keeps readable]
  have text : Hitch.parenthesizedText (slice.halfHitch buffers readable) =
      Hitch.parenthesizedText (.ofBytes (slice.bytes buffers)) := by
    simp [Hitch.parenthesizedText, Slice.bytes_halfHitch]
  rw [resolveHanded_eq, evalHanded_eq made, same, text]
  refine congrArg (List.cons · _) (Prod.ext ?_ rfl)
  exact slice.prefix_parenthesized buffers

end QuickJS

/-! ## What the operations hand over: JavaScriptCore -/

namespace JSC

/-- The string that a command makes. -/
@[simp]
def Command.created? : Command → Option Bytes
  | .jsStringCreateWithUTF8CString text => some text
  | _ => none

/-- No command makes a string. -/
abbrev Silent {α : Type} (program : Operation α) : Prop :=
  program.Uses fun command : Command => command.created? = none

theorem Reading.silent {α : Type} {program : Operation α} (reading : Reading program) :
    Silent program :=
  Uses.mono reading fun command isReader => by
    cases command <;> first | rfl | cases isReader

variable {State : Type} (handle : Handler interface State)

theorem hands_withJSString {α : Type} (text : Bytes)
    {callback : JSStringRef → Operation (Option α)} (silent : ∀ string, Silent (callback string))
    (state : State) :
    (withJSString text callback).shows (fun _ => Command.created?) handle state =
      [cString text] := by
  have rest : ∀ string, Silent (match string with
      | some jsstring => callback jsstring
      | none => return none : Operation (Option α)) := by
    intro string
    cases string with
    | none => trivial
    | some string => exact silent string
  exact (shows_call _ _ _).trans
    (congrArg (List.cons _) ((rest _).shows_eq_nil_of_command handle _))

theorem silent_evalScript (jib : JibFields) (jsScript : JSStringRef) :
    Silent (evalScript jib jsScript) := by
  refine ⟨rfl, ?_⟩
  rintro ⟨_, exception⟩
  cases exception with
  | none => exact ⟨rfl, fun _ => trivial⟩
  | some jsException =>
      exact (reading_record jib.context jsException).silent.bind fun _ => by simp

/-- An evaluation hands its script over unless the `Jib` has been released. -/
theorem hands_eval (jib : JibFields) {script : HalfHitch} (hasMemory : script.raw.isSome = true)
    (state : State) :
    (eval jib script).shows (fun _ => Command.created?) handle state =
      if (handle .readReleased state).1 then [] else [cString script.bytes] := by
  apply (shows_call _ _ _).trans
  change [] ++ shows _ _ (if (handle .readReleased state).1 then _ else _) _ = _
  split
  · rfl
  · rw [shows_locked, jsString_eq hasMemory]
    exact hands_withJSString handle script.bytes (silent_evalScript jib) _

theorem silent_definedProperty (jib : JibFields) (string : JSStringRef) :
    Silent (definedProperty jib string) := by
  refine ⟨rfl, ?_⟩
  intro value
  cases value with
  | none => trivial
  | some value =>
      refine ⟨rfl, ?_⟩
      intro isUndefined
      cases isUndefined <;> trivial

/-- The text that `resolve` takes as a name. -/
def nameTexts (script : HalfHitch) : List Bytes :=
  if script.count < 128 then [cString script.bytes] else []

theorem hands_resolveGlobal (jib : JibFields) {script : HalfHitch}
    (hasMemory : script.raw.isSome = true) (state : State) :
    (resolveGlobal jib script).shows (fun _ => Command.created?) handle state =
      nameTexts script := by
  unfold resolveGlobal nameTexts
  split
  · rw [createJSString, jsString_eq hasMemory, shows_bind,
      hands_withJSString handle script.bytes (fun _ => by simp)]
    refine congrArg _ (Uses.shows_eq_nil_of_command ?_ handle _)
    split
    · exact (silent_definedProperty jib _).bind fun _ => by simp
    · trivial
  · rfl

theorem silent_acceptDefined (jib : JibFields)
    (evaluated : Option JSValueRef × Option JSValueRef) :
    Silent (acceptDefined jib evaluated) := by
  obtain ⟨jsValue, exception⟩ := evaluated
  cases jsValue with
  | none => trivial
  | some jsValue =>
      cases exception with
      | some jsException => trivial
      | none =>
          refine ⟨rfl, ?_⟩
          intro isUndefined
          cases isUndefined <;> trivial

theorem silent_acceptOrRecord (jib : JibFields)
    (evaluated : Option JSValueRef × Option JSValueRef) :
    Silent (acceptOrRecord jib evaluated) := by
  obtain ⟨jsValue, exception⟩ := evaluated
  cases exception with
  | none => trivial
  | some jsException => exact (reading_record jib.context jsException).silent

theorem hands_hitchJSString_ofBytes {α : Type} (text : Bytes)
    {callback : JSStringRef → Operation (Option α)} (silent : ∀ string, Silent (callback string))
    (state : State) :
    (hitchJSString (.ofBytes text) callback).shows (fun _ => Command.created?) handle state =
      [cString text] := by
  simp only [hitchJSString, Hitch.raw_ofBytes, Hitch.following_ofBytes, if_true]
  rw [hands_withJSString handle _ silent, cString_append_zero]

theorem hands_resolveParenthesized (jib : JibFields) (script : HalfHitch) (state : State) :
    (resolveParenthesized jib script).shows (fun _ => Command.created?) handle state =
      [cString (Hitch.parenthesizedText script)] := by
  refine hands_hitchJSString_ofBytes handle (Hitch.parenthesizedText script) ?_ state
  exact fun jsScript => ⟨rfl, fun evaluated =>
    (silent_acceptDefined jib evaluated).bind fun _ => by simp⟩

theorem hands_resolveUnmodified (jib : JibFields) {script : HalfHitch}
    (hasMemory : script.raw.isSome = true) (state : State) :
    (resolveUnmodified jib script).shows (fun _ => Command.created?) handle state =
      [cString script.bytes] := by
  rw [resolveUnmodified, jsString_eq hasMemory]
  refine hands_withJSString handle script.bytes ?_ state
  exact fun jsScript => ⟨rfl, fun evaluated =>
    (silent_acceptOrRecord jib evaluated).bind fun _ => by simp⟩

theorem hands_resolveEvaluated (jib : JibFields) {script : HalfHitch}
    (hasMemory : script.raw.isSome = true) (state : State) :
    (resolveEvaluated jib script).shows (fun _ => Command.created?) handle state =
      List.take (if ((resolveParenthesized jib script).run handle state).1.isSome then 1 else 2)
        [cString (Hitch.parenthesizedText script), cString script.bytes] := by
  rw [resolveEvaluated, shows_bind, hands_resolveParenthesized]
  cases ((resolveParenthesized jib script).run handle state).1 with
  | some value => rfl
  | none =>
      dsimp only
      rw [shows_bind, hands_resolveUnmodified handle jib hasMemory]
      split <;> rfl

/-- The attempts that `resolve` makes: the name, if it is short, and each evaluation if the
attempts before it give nothing. -/
def attemptCount (jib : JibFields) (script : HalfHitch) (state : State) : Nat :=
  let named := (resolveGlobal jib script).run handle (handle (.setException none) state).2
  let evaluated := (resolveParenthesized jib script).run handle named.2
  (if script.count < 128 then 1 else 0) +
    if named.1.isSome then 0 else if evaluated.1.isSome then 1 else 2

/-- The attempts of `resolve` hand over what they try, in order. -/
theorem hands_resolve (jib : JibFields) {script : HalfHitch}
    (hasMemory : script.raw.isSome = true) (state : State) :
    (resolve jib script).shows (fun _ => Command.created?) handle state =
      (nameTexts script ++
          [cString (Hitch.parenthesizedText script), cString script.bytes]).take
        (attemptCount handle jib script state) := by
  have names : (nameTexts script).length = if script.count < 128 then 1 else 0 := by
    unfold nameTexts
    split <;> rfl
  simp only [resolve, setException, call_bind, done_bind, attemptCount]
  rw [shows_call, shows_bind, hands_resolveGlobal handle jib hasMemory, ← names,
    List.take_length_add_append]
  refine congrArg (nameTexts script ++ ·) ?_
  cases isNamed : ((resolveGlobal jib script).run handle
      (handle (.setException none) state).2).1 with
  | some value => rfl
  | none => exact hands_resolveEvaluated handle jib hasMemory _

end JSC

/-! ## What the outcome depends on -/

/-- Slices of one text, with memory behind them. -/
def SameText (script other : HalfHitch) : Prop :=
  script.raw.isSome = true ∧ other.raw.isSome = true ∧ other.bytes = script.bytes

theorem SameText.count_eq {script other : HalfHitch} (same : SameText script other) :
    other.count = script.count := by
  obtain ⟨hasMemory, otherMemory, sameBytes⟩ := same
  obtain ⟨memory, isMemory⟩ := Option.isSome_iff_exists.mp hasMemory
  obtain ⟨otherMemory, isOther⟩ := Option.isSome_iff_exists.mp otherMemory
  rw [← HalfHitch.length_bytes isMemory, ← HalfHitch.length_bytes isOther, sameBytes]

theorem SameText.parenthesizedText_eq {script other : HalfHitch} (same : SameText script other) :
    Hitch.parenthesizedText other = Hitch.parenthesizedText script := by
  rw [Hitch.parenthesizedText, Hitch.parenthesizedText, same.2.2]

namespace QuickJS

/-- An evaluation reads no further than the NUL after its script. -/
def ReadsScripts {State : Type} (handle : Handler interface State) : Prop :=
  ∀ text input state, text ++ [0] <+: input →
    handle (.jsEval input text.length) state = handle (.jsEval (text ++ [0]) text.length) state

variable {State : Type} {handle : Handler interface State} {script other : HalfHitch}

theorem run_evalScript_nullTerminated (reads : ReadsScripts handle)
    (hasMemory : script.raw.isSome = true) (state : State) :
    (evalScript script.nullTerminated).run handle state =
      (some (handle (.jsEval (script.bytes ++ [0]) script.bytes.length) state).1,
        (handle (.jsEval (script.bytes ++ [0]) script.bytes.length) state).2) := by
  rw [← HalfHitch.isSome_raw_nullTerminated] at hasMemory
  obtain ⟨memory, isMemory⟩ := Option.isSome_iff_exists.mp hasMemory
  have isPrefix := HalfHitch.prefix_of_following isMemory script.following_nullTerminated
  have length := HalfHitch.length_bytes isMemory
  rw [script.bytes_nullTerminated] at isPrefix length
  have same := reads script.bytes memory state isPrefix
  rw [length] at same ⊢
  simp only [evalScript, isMemory, jsEval, call_bind, done_bind, run_call, same, pure_eq_done,
    run_done]

theorem run_evalScript_of_sameText (reads : ReadsScripts handle)
    (same : SameText script other) (state : State) :
    (evalScript other.nullTerminated).run handle state =
      (evalScript script.nullTerminated).run handle state := by
  rw [run_evalScript_nullTerminated reads same.1, run_evalScript_nullTerminated reads same.2.1,
    same.2.2]

theorem run_eval_of_sameText (reads : ReadsScripts handle) (same : SameText script other)
    (state : State) : (eval other).run handle state = (eval script).run handle state := by
  rw [eval, eval, run_locked, run_locked, run_bind, run_bind,
    run_evalScript_of_sameText reads same]

theorem run_resolve_of_sameText (reads : ReadsScripts handle) (same : SameText script other)
    (state : State) : (resolve other).run handle state = (resolve script).run handle state := by
  rw [resolve_eq, resolve_eq, same.parenthesizedText_eq, run_call, run_call]
  split
  · exact run_evalScript_of_sameText reads same _
  · rfl

end QuickJS

namespace JSC

variable {script other : HalfHitch}

theorem eval_of_sameText (jib : JibFields) (same : SameText script other) :
    eval jib other = eval jib script := by
  rw [eval, eval, jsString_eq same.1, jsString_eq same.2.1, same.2.2]

theorem resolve_of_sameText (jib : JibFields) (same : SameText script other) :
    resolve jib other = resolve jib script := by
  have sameGlobal : resolveGlobal jib other = resolveGlobal jib script := by
    simp only [resolveGlobal, createJSString, jsString_eq same.1, jsString_eq same.2.1, same.2.2,
      same.count_eq]
  have sameParenthesized : resolveParenthesized jib other = resolveParenthesized jib script := by
    simp only [resolveParenthesized, Hitch.parenthesized, same.parenthesizedText_eq]
  have sameUnmodified : resolveUnmodified jib other = resolveUnmodified jib script := by
    simp only [resolveUnmodified, jsString_eq same.1, jsString_eq same.2.1, same.2.2]
  simp only [resolve, resolveEvaluated, sameGlobal, sameParenthesized, sameUnmodified]

end JSC

/-! ## Scripts are evaluated exactly -/

/-- What the evaluations of a slice hand to QuickJS, what they do to the
buffers, and what their outcome depends on.  `resolve` hands over as many of its texts
as it makes attempts. -/
structure QuickJS.EvaluatesExactly (slice : Slice) (buffers : Buffers) (script : HalfHitch) :
    Prop where
  eval_exactly : HandsExactly [script.bytes] (QuickJS.evalHanded slice buffers).1
  resolve_exactly : HandsExactly [Hitch.parenthesizedText script, script.bytes]
    (QuickJS.resolveHanded slice buffers).1
  eval_keeps : buffers.Keeps (QuickJS.evalHanded slice buffers).2
  resolve_keeps : buffers.Keeps (QuickJS.resolveHanded slice buffers).2
  eval_hands : ∀ {State : Type} (handle : Handler QuickJS.interface State) (state : State),
    (QuickJS.eval script).shows (fun _ => QuickJS.Command.script?) handle state =
      (QuickJS.evalHanded slice buffers).1
  resolve_hands : ∀ {State : Type} (handle : Handler QuickJS.interface State) (state : State),
    (QuickJS.resolve script).shows (fun _ => QuickJS.Command.script?) handle state =
      (QuickJS.resolveHanded slice buffers).1.take (QuickJS.attemptCount handle script state)
  independent : ∀ other, SameText script other →
    ∀ {State : Type} (handle : Handler QuickJS.interface State), QuickJS.ReadsScripts handle →
      ∀ state, (QuickJS.eval other).run handle state = (QuickJS.eval script).run handle state ∧
        (QuickJS.resolve other).run handle state = (QuickJS.resolve script).run handle state

/-- What the evaluations of a slice hand to JavaScriptCore, what they do to the
buffers, and what their outcome depends on. -/
structure JSC.EvaluatesExactly (jib : JSC.JibFields) (slice : Slice) (buffers : Buffers)
    (script : HalfHitch) : Prop where
  eval_exactly : HandsExactly [script.bytes] (JSC.evalHanded slice buffers).1
  resolve_exactly : HandsExactly (JSC.resolveTexts script.bytes) (JSC.resolveHanded slice buffers).1
  eval_keeps : buffers.Keeps (JSC.evalHanded slice buffers).2
  resolve_keeps : buffers.Keeps (JSC.resolveHanded slice buffers).2
  eval_hands : ∀ {State : Type} (handle : Handler JSC.interface State) (state : State),
    (JSC.eval jib script).shows (fun _ => JSC.Command.created?) handle state =
      if (handle .readReleased state).1 then [] else textsOf (JSC.evalHanded slice buffers).1
  resolve_hands : ∀ {State : Type} (handle : Handler JSC.interface State) (state : State),
    (JSC.resolve jib script).shows (fun _ => JSC.Command.created?) handle state =
      (textsOf (JSC.resolveHanded slice buffers).1).take
        (JSC.attemptCount handle jib script state)
  independent : ∀ other, SameText script other →
    JSC.eval jib other = JSC.eval jib script ∧ JSC.resolve jib other = JSC.resolve jib script

section

variable {slice : Slice} {buffers : Buffers} (readable : slice.Readable buffers)
include readable

theorem parenthesizedText_halfHitch :
    Hitch.parenthesizedText (slice.halfHitch buffers readable) =
      Hitch.parenthesizedText (.ofBytes (slice.bytes buffers)) := by
  simp [Hitch.parenthesizedText, Slice.bytes_halfHitch]

theorem QuickJS.evaluates :
    QuickJS.EvaluatesExactly slice buffers (slice.halfHitch buffers readable) where
  eval_exactly := QuickJS.handsExactly_eval readable
  resolve_exactly := by
    rw [parenthesizedText_halfHitch]
    exact QuickJS.handsExactly_resolve readable
  eval_keeps := QuickJS.keeps_eval readable
  resolve_keeps := QuickJS.keeps_resolve readable
  eval_hands := by
    intro State handle state
    rw [QuickJS.hands_eval handle rfl, QuickJS.evalHanded_eq readable]
  resolve_hands := by
    intro State handle state
    rw [QuickJS.hands_resolve handle rfl, QuickJS.resolveHanded_eq_handedOf readable]
  independent := fun _ same _ _ reads state =>
    ⟨QuickJS.run_eval_of_sameText reads same state,
      QuickJS.run_resolve_of_sameText reads same state⟩

theorem JSC.evaluates (jib : JSC.JibFields) (noNul : 0 ∉ slice.bytes buffers) :
    JSC.EvaluatesExactly jib slice buffers (slice.halfHitch buffers readable) where
  eval_exactly := JSC.handsExactly_eval readable noNul
  resolve_exactly := JSC.handsExactly_resolve readable noNul
  eval_keeps := JSC.keeps_eval slice buffers
  resolve_keeps := JSC.keeps_resolve slice buffers
  eval_hands := by
    intro State handle state
    rw [JSC.hands_eval handle jib rfl, (JSC.handsExactly_eval readable noNul).textsOf_eq]
    rw [Slice.bytes_halfHitch, cString_of_noNul noNul]
  resolve_hands := by
    intro State handle state
    have hasMemory : (slice.halfHitch buffers readable).raw.isSome = true := rfl
    have hands := JSC.hands_resolve handle jib hasMemory state
    have count : (slice.halfHitch buffers readable).count = (slice.bytes buffers).length :=
      (Slice.length_bytes readable).symm
    rw [JSC.nameTexts, parenthesizedText_halfHitch readable, Slice.bytes_halfHitch, count,
      cString_of_noNul noNul, cString_of_noNul (JSC.noNul_parenthesizedText noNul)] at hands
    rw [(JSC.handsExactly_resolve readable noNul).textsOf_eq]
    exact hands
  independent := fun _ same => ⟨JSC.eval_of_sameText jib same, JSC.resolve_of_sameText jib same⟩

end

/-- Whatever a slice without a NUL is cut from, the engine is handed its text
and a NUL and nothing else, and all buffers stay as they are. -/
theorem evaluatesExactly {slice : Slice} {buffers : Buffers} (jib : JSC.JibFields)
    (readable : slice.Readable buffers) (noNul : 0 ∉ slice.bytes buffers) :
    QuickJS.EvaluatesExactly slice buffers (slice.halfHitch buffers readable) ∧
      JSC.EvaluatesExactly jib slice buffers (slice.halfHitch buffers readable) :=
  ⟨QuickJS.evaluates readable, JSC.evaluates readable jib noNul⟩

/-- `"x+1y"`. -/
def mixedBuffers : Buffers := [[120, 43, 49, 121]]

/-- `"+1"`, with bytes on both sides. -/
def middleSlice : Slice := ⟨0, 1, 2⟩

theorem readable_middleSlice : middleSlice.Readable mixedBuffers := by
  unfold Slice.Readable
  decide

theorem evaluatesExactly_middleSlice :
    QuickJS.EvaluatesExactly middleSlice mixedBuffers
        (middleSlice.halfHitch mixedBuffers readable_middleSlice) ∧
      JSC.EvaluatesExactly JSC.someJib middleSlice mixedBuffers
        (middleSlice.halfHitch mixedBuffers readable_middleSlice) :=
  evaluatesExactly JSC.someJib readable_middleSlice (by decide)

end Jib
