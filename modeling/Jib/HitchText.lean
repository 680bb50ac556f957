import Mathlib.Data.List.TakeWhile

/-!
# Byte strings of the Swift side

A `HalfHitch` is a slice of some buffer.  Its pointer can be read beyond the
slice, and C functions that take the pointer without a length do so up to the
first NUL.  `nullTerminated` is what the code does about it before a script is
handed to the engine.
-/

namespace Jib

abbrev Bytes := List UInt8

/-- What a C function reads from a pointer to `memory`. -/
def cString (memory : Bytes) : Bytes :=
  memory.takeWhile (· ≠ 0)

/-- The terminator of a string is not part of it. -/
@[simp]
theorem cString_append_zero (bytes : Bytes) : cString (bytes ++ [0]) = cString bytes := by
  induction bytes with
  | nil => rfl
  | cons byte rest ih =>
      simp only [cString, List.cons_append, List.takeWhile_cons] at ih ⊢
      split
      · rw [ih]
      · rfl

theorem cString_of_noNul {bytes : Bytes} (noNul : 0 ∉ bytes) : cString bytes = bytes := by
  apply List.takeWhile_eq_self_iff.mpr
  intro byte member
  simpa using fun isNul : byte = 0 => noNul (isNul ▸ member)

theorem cString_eq_self_iff {bytes : Bytes} : cString bytes = bytes ↔ 0 ∉ bytes := by
  refine ⟨?_, cString_of_noNul⟩
  intro same hasNul
  have notNul := List.takeWhile_eq_self_iff.mp same 0 hasNul
  simp at notNul

/-- What follows a NUL is not read. -/
theorem cString_append_of_nul {bytes : Bytes} (hasNul : 0 ∈ bytes) (rest : Bytes) :
    cString (bytes ++ rest) = cString bytes := by
  induction bytes with
  | nil => cases hasNul
  | cons byte bytes ih =>
      simp only [cString, List.cons_append, List.takeWhile_cons] at ih ⊢
      split
      · rename_i notNul
        have differs : 0 ≠ byte := Ne.symm (of_decide_eq_true notNul)
        rw [ih ((List.mem_cons.mp hasNul).resolve_left differs)]
      · rfl

/-- Nothing beyond a NUL is read. -/
theorem cString_take {memory : Bytes} {count : Nat}
    (terminated : memory[count]? = some 0) :
    cString (memory.take count) = cString memory := by
  induction memory generalizing count with
  | nil => simp at terminated
  | cons byte rest ih =>
      cases count with
      | zero =>
          obtain rfl : byte = 0 := by simpa using terminated
          rfl
      | succ count =>
          simp only [List.getElem?_cons_succ] at terminated
          simp only [cString, List.take_succ_cons, List.takeWhile_cons] at ih ⊢
          split
          · rw [ih terminated]
          · rfl

/-- A slice: `raw` is the memory from its first byte to the end of its buffer,
and the byte after the slice can be read. -/
structure HalfHitch where
  raw : Option Bytes
  count : Nat
  readable : ∀ memory ∈ raw, count < memory.length

/-- A string with storage of its own; `isMutable` says whether `mutableRaw()`
gives access to it. -/
structure Hitch where
  raw : Option Bytes
  count : Nat
  readable : ∀ memory ∈ raw, count < memory.length
  isMutable : Bool

/-- The slice that consists of `bytes` in a fresh NUL-terminated buffer. -/
def HalfHitch.ofBytes (bytes : Bytes) : HalfHitch where
  raw := some (bytes ++ [0])
  count := bytes.length
  readable := by simp

/-- A fresh mutable string. -/
def Hitch.ofBytes (bytes : Bytes) : Hitch where
  raw := some (bytes ++ [0])
  count := bytes.length
  readable := by simp
  isMutable := true

namespace HalfHitch

/-- The bytes of the slice itself. -/
def bytes (slice : HalfHitch) : Bytes :=
  (slice.raw.getD []).take slice.count

/-- The byte after the slice. -/
def following (slice : HalfHitch) : UInt8 :=
  ((slice.raw.getD [])[slice.count]?).getD 0

/-- The slice that `nullTerminated` passes to its callback: the slice itself
when a NUL follows it, else a terminated copy. -/
def nullTerminated (slice : HalfHitch) : HalfHitch :=
  match slice.raw with
  | some _ => if slice.following ≠ 0 then ofBytes slice.bytes else slice
  | none => slice

theorem isSome_raw_of_bytes_ne_nil {slice : HalfHitch} (nonEmpty : slice.bytes ≠ []) :
    slice.raw.isSome = true := by
  cases hasMemory : slice.raw with
  | none => simp [bytes, hasMemory] at nonEmpty
  | some memory => rfl

@[simp]
theorem bytes_ofBytes (bytes : Bytes) : (ofBytes bytes).bytes = bytes := by
  simp [ofBytes, HalfHitch.bytes]

@[simp]
theorem raw_ofBytes (bytes : Bytes) : (ofBytes bytes).raw = some (bytes ++ [0]) :=
  rfl

@[simp]
theorem following_ofBytes (bytes : Bytes) : (ofBytes bytes).following = 0 := by
  simp [ofBytes, following]

/-- The callback gets the same text. -/
@[simp]
theorem bytes_nullTerminated (slice : HalfHitch) :
    slice.nullTerminated.bytes = slice.bytes := by
  unfold nullTerminated
  split
  · split
    · exact bytes_ofBytes slice.bytes
    · rfl
  · rfl

/-- Whatever the slice is cut from, a NUL follows what the callback gets. -/
@[simp]
theorem following_nullTerminated (slice : HalfHitch) :
    slice.nullTerminated.following = 0 := by
  unfold nullTerminated
  split
  · split
    · exact following_ofBytes slice.bytes
    · rename_i isNul
      simpa using isNul
  · rename_i noMemory
    simp [following, noMemory]

/-- A terminated slice reads as its own text. -/
theorem cString_raw {slice : HalfHitch} {memory : Bytes}
    (hasMemory : slice.raw = some memory) (terminated : slice.following = 0) :
    cString memory = cString slice.bytes := by
  have inside : slice.count < memory.length :=
    slice.readable memory (by simp [hasMemory])
  have isZero : memory[slice.count]? = some 0 := by
    simpa [following, hasMemory, List.getElem?_eq_getElem inside] using terminated
  simp [bytes, hasMemory, cString_take isZero]

theorem length_bytes {slice : HalfHitch} {memory : Bytes} (hasMemory : slice.raw = some memory) :
    slice.bytes.length = slice.count := by
  have inside : slice.count < memory.length :=
    slice.readable memory (by simp [hasMemory])
  simp only [bytes, hasMemory, Option.getD_some, List.length_take]
  omega

theorem prefix_of_following {slice : HalfHitch} {memory : Bytes}
    (hasMemory : slice.raw = some memory) (terminated : slice.following = 0) :
    slice.bytes ++ [0] <+: memory := by
  have inside : slice.count < memory.length :=
    slice.readable memory (by simp [hasMemory])
  have isNul : memory[slice.count] = 0 := by
    simpa [following, hasMemory, List.getElem?_eq_getElem inside] using terminated
  have whole : slice.bytes ++ [0] = memory.take (slice.count + 1) := by
    rw [List.take_succ_eq_append_getElem inside, isNul]
    simp [bytes, hasMemory]
  rw [whole]
  exact List.take_prefix _ _

/-- There is memory behind the terminated slice if there is behind the slice. -/
theorem isSome_raw_nullTerminated (slice : HalfHitch) :
    slice.nullTerminated.raw.isSome = slice.raw.isSome := by
  unfold nullTerminated
  split
  · rename_i memory hasMemory
    split
    · simp [hasMemory]
    · rfl
  · rfl

end HalfHitch

namespace Hitch

def halfhitch (hitch : Hitch) : HalfHitch where
  raw := hitch.raw
  count := hitch.count
  readable := hitch.readable

/-- The byte stored after the string. -/
def following (hitch : Hitch) : UInt8 :=
  hitch.halfhitch.following

/-- Store a NUL after the string, in place. -/
def terminate (hitch : Hitch) : Hitch where
  raw := hitch.raw.map fun memory => memory.set hitch.count 0
  count := hitch.count
  readable := by
    intro memory memoryMem
    obtain ⟨original, originalMem, rfl⟩ := Option.map_eq_some_iff.mp memoryMem
    rw [List.length_set]
    exact hitch.readable original originalMem
  isMutable := hitch.isMutable

/-- `nullTerminated` of a `Hitch`: its storage afterwards and the slice that
is passed to the callback.  Mutable storage is terminated in place. -/
def nullTerminated (hitch : Hitch) : Hitch × HalfHitch :=
  match hitch.raw with
  | some _ =>
      if hitch.following ≠ 0 then
        if hitch.isMutable then (hitch.terminate, hitch.terminate.halfhitch)
        else (hitch, .ofBytes hitch.halfhitch.bytes)
      else (hitch, hitch.halfhitch)
  | none => (hitch, hitch.halfhitch)

/-- The text of `"({0})" << [slice]`. -/
def parenthesizedText (slice : HalfHitch) : Bytes :=
  [40] ++ slice.bytes ++ [41]

/-- `"({0})" << [slice]`. -/
def parenthesized (slice : HalfHitch) : Hitch :=
  .ofBytes (parenthesizedText slice)

@[simp]
theorem raw_ofBytes (bytes : Bytes) : (ofBytes bytes).raw = some (bytes ++ [0]) :=
  rfl

@[simp]
theorem following_ofBytes (bytes : Bytes) : (ofBytes bytes).following = 0 :=
  HalfHitch.following_ofBytes bytes

@[simp]
theorem nullTerminated_ofBytes (bytes : Bytes) :
    (ofBytes bytes).nullTerminated = (ofBytes bytes, .ofBytes bytes) := by
  simp [ofBytes, nullTerminated, following, halfhitch, HalfHitch.following,
    HalfHitch.ofBytes]

end Hitch

end Jib
