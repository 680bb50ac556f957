import Jib.HitchText

/-!
# Slices in shared buffers

A `HalfHitch` shares the buffer that it is cut from, and a `Hitch` may write to
its own.  Here both are places in a list of buffers, and the functions that
terminate a string say what they do to the buffers.
-/

namespace Jib

/-- The buffers of the process; one that is allocated comes last. -/
abbrev Buffers := List Bytes

namespace Buffers

/-- Write one byte. -/
def store (buffers : Buffers) (buffer index : Nat) (byte : UInt8) : Buffers :=
  buffers.set buffer ((buffers[buffer]?.getD []).set index byte)

/-- Every buffer is there as it was. -/
def Keeps (buffers after : Buffers) : Prop :=
  ∀ buffer < buffers.length, after[buffer]? = buffers[buffer]?

theorem keeps_refl (buffers : Buffers) : buffers.Keeps buffers :=
  fun _ _ => rfl

theorem Keeps.trans {first second third : Buffers} (keeps : first.Keeps second)
    (next : second.Keeps third) (grows : first.length ≤ second.length) :
    first.Keeps third := by
  intro buffer inside
  rw [next buffer (by omega), keeps buffer inside]

/-- An allocation keeps all buffers. -/
theorem keeps_append (buffers : Buffers) (fresh : Bytes) :
    buffers.Keeps (buffers ++ [fresh]) := by
  intro buffer inside
  rw [List.getElem?_append_left inside]

end Buffers

/-- A `HalfHitch` by its place. -/
structure Slice where
  buffer : Nat
  start : Nat
  count : Nat

/-- A `Hitch` by its place. -/
structure Storage where
  buffer : Nat
  count : Nat
  isMutable : Bool

namespace Slice

variable (slice : Slice) (buffers : Buffers)

/-- The memory from the first byte of the slice on. -/
def memory : Bytes :=
  (buffers[slice.buffer]?.getD []).drop slice.start

/-- The byte after the slice can be read. -/
def Readable : Prop :=
  slice.count < (slice.memory buffers).length

def bytes : Bytes :=
  (slice.memory buffers).take slice.count

/-- The byte after the slice. -/
def following : UInt8 :=
  ((slice.memory buffers)[slice.count]?).getD 0

/-- What a reader of the slice sees. -/
def halfHitch (readable : slice.Readable buffers) : HalfHitch where
  raw := some (slice.memory buffers)
  count := slice.count
  readable := by
    intro memory isMemory
    obtain rfl := Option.some.inj isMemory
    exact readable

/-- `hitch()`: the bytes are copied to a fresh NUL-terminated buffer. -/
def hitch : Storage × Buffers :=
  (⟨buffers.length, slice.count, true⟩, buffers ++ [slice.bytes buffers ++ [0]])

/-- `"({0})" << [slice]`. -/
def parenthesized : Storage × Buffers :=
  (⟨buffers.length, (Hitch.parenthesizedText (.ofBytes (slice.bytes buffers))).length, true⟩,
    buffers ++ [Hitch.parenthesizedText (.ofBytes (slice.bytes buffers)) ++ [0]])

end Slice

namespace Storage

variable (hitch : Storage) (buffers : Buffers)

def halfhitch : Slice :=
  ⟨hitch.buffer, 0, hitch.count⟩

/-- `hitch[count] = 0`. -/
def terminate : Buffers :=
  buffers.store hitch.buffer hitch.count 0

end Storage

/-- `HalfHitch.nullTerminated`: the slice that is passed to the callback and the
buffers then. -/
def Slice.nullTerminated (slice : Slice) (buffers : Buffers) : Slice × Buffers :=
  if slice.following buffers ≠ 0 then
    let (nulled, copied) := slice.hitch buffers
    (nulled.halfhitch, nulled.terminate copied)
  else (slice, buffers)

/-- `Hitch.nullTerminated`; mutable storage is terminated in place. -/
def Storage.nullTerminated (hitch : Storage) (buffers : Buffers) : Slice × Buffers :=
  if hitch.halfhitch.following buffers ≠ 0 then
    if hitch.isMutable then (hitch.halfhitch, hitch.terminate buffers)
    else
      let (nulled, copied) := hitch.halfhitch.hitch buffers
      (nulled.halfhitch, nulled.terminate copied)
  else (hitch.halfhitch, buffers)

/-! ## What the functions do -/

/-- A string at the start of the last buffer. -/
theorem memory_append (buffers : Buffers) (fresh : Bytes) (count : Nat) :
    (Slice.mk buffers.length 0 count).memory (buffers ++ [fresh]) = fresh := by
  simp [Slice.memory]

/-- The terminator of a fresh string is there already. -/
theorem terminate_append (buffers : Buffers) (text : Bytes) (isMutable : Bool) :
    (Storage.mk buffers.length text.length isMutable).terminate (buffers ++ [text ++ [0]]) =
      buffers ++ [text ++ [0]] := by
  simp [Storage.terminate, Buffers.store]

namespace Slice

variable {slice : Slice} {buffers after : Buffers}

theorem bytes_halfHitch (readable : slice.Readable buffers) :
    (slice.halfHitch buffers readable).bytes = slice.bytes buffers :=
  rfl

theorem memory_of_keeps (keeps : buffers.Keeps after) (readable : slice.Readable buffers) :
    slice.memory after = slice.memory buffers := by
  have inside : slice.buffer < buffers.length := by
    by_contra outside
    simp [Readable, memory, List.getElem?_eq_none (Nat.le_of_not_lt outside)] at readable
  rw [memory, memory, keeps slice.buffer inside]

theorem length_bytes (readable : slice.Readable buffers) :
    (slice.bytes buffers).length = slice.count := by
  have := readable
  unfold Readable at this
  simp only [bytes, List.length_take]
  omega

/-- Terminating a slice leaves all buffers as they are. -/
theorem keeps_nullTerminated (readable : slice.Readable buffers) :
    buffers.Keeps (slice.nullTerminated buffers).2 := by
  unfold nullTerminated
  split
  · dsimp only [hitch]
    rw [← length_bytes readable, terminate_append]
    exact buffers.keeps_append _
  · exact buffers.keeps_refl

theorem prefix_of_following (readable : slice.Readable buffers)
    (terminated : slice.following buffers = 0) :
    slice.bytes buffers ++ [0] <+: slice.memory buffers :=
  (HalfHitch.prefix_of_following rfl terminated :
    (slice.halfHitch buffers readable).bytes ++ [0] <+: slice.memory buffers)

/-- What the callback sees is what it sees of a slice with memory of its own. -/
theorem nullTerminated_eq (readable : slice.Readable buffers) :
    ∃ readable' : (slice.nullTerminated buffers).1.Readable (slice.nullTerminated buffers).2,
      (slice.nullTerminated buffers).1.halfHitch (slice.nullTerminated buffers).2 readable' =
        (slice.halfHitch buffers readable).nullTerminated := by
  have sameFollowing : (slice.halfHitch buffers readable).following = slice.following buffers :=
    rfl
  have sameBytes : (slice.halfHitch buffers readable).bytes = slice.bytes buffers := rfl
  have pure : (slice.halfHitch buffers readable).nullTerminated =
      if slice.following buffers ≠ 0 then .ofBytes (slice.bytes buffers)
      else slice.halfHitch buffers readable := by
    rw [HalfHitch.nullTerminated, sameFollowing, sameBytes]
    rfl
  by_cases follows : slice.following buffers = 0
  · have same : slice.nullTerminated buffers = (slice, buffers) := by
      rw [nullTerminated, if_neg (by simpa using follows)]
    rw [same, pure, if_neg (by simpa using follows)]
    exact ⟨readable, rfl⟩
  · have copied : slice.nullTerminated buffers =
        (⟨buffers.length, 0, (slice.bytes buffers).length⟩,
          buffers ++ [slice.bytes buffers ++ [0]]) := by
      rw [nullTerminated, if_pos follows]
      dsimp only [hitch, Storage.halfhitch]
      rw [← length_bytes readable, terminate_append]
    rw [copied, pure, if_pos follows]
    refine ⟨by simp [Readable, memory_append], ?_⟩
    simp [halfHitch, memory_append, HalfHitch.ofBytes]

end Slice

/-- Text in parentheses is terminated already, and a fresh buffer holds it. -/
theorem Slice.nullTerminated_parenthesized (slice : Slice) (buffers : Buffers) :
    (slice.parenthesized buffers).1.nullTerminated (slice.parenthesized buffers).2 =
      ((slice.parenthesized buffers).1.halfhitch, (slice.parenthesized buffers).2) := by
  have isNul : (slice.parenthesized buffers).1.halfhitch.following
      (slice.parenthesized buffers).2 = 0 := by
    simp [parenthesized, Storage.halfhitch, following, memory_append]
  rw [Storage.nullTerminated, if_neg (by simpa using isNul)]

end Jib
