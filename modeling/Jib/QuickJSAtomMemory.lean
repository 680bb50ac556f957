import Jib.QuickJSFirstAtoms

/-!
# The memory of atoms

An operation puts structures only where it is given memory, raises no count by more
than one and makes the array of atoms longer by half at most.
-/

namespace Jib.QuickJS

open HashChains

namespace AtomTable

variable {rt after : AtomTable} {i v h : Nat} {p : Address} {str : JSAtomStruct}
  {type : AtomType} {malloc : Mallocs} {region : Address → Prop} {bound : Int} {size : Nat}

/-- Structures are in a region with counts up to a bound, and so is the size of the
array. -/
structure Within (region : Address → Prop) (bound : Int) (size : Nat) (rt : AtomTable) :
    Prop where
  strings : ∀ {p str}, rt.strings p = some str → region p ∧ str.refCount ≤ bound
  array : rt.atomArray.length ≤ size

/-- The size of an array that `__JS_NewAtom` has made longer. -/
def grownSize (size : Nat) : Nat :=
  max 211 (size * 3 / 2)

theorem strings_of_find {found : Nat → Address × JSAtomStruct → Bool} {before : Option Nat}
    (finds : rt.find found h = some (some (before, i, p, str))) : rt.strings p = some str := by
  obtain ⟨first, -, finds⟩ := Option.bind_eq_some_iff.mp finds
  exact (read_eq_some.mp (read_of_search finds)).2

namespace Within

theorem mono (within : Within region bound size rt) {bound' : Int} {size' : Nat}
    (larger : bound ≤ bound') (longer : size ≤ size') : Within region bound' size' rt :=
  ⟨fun isStr => ⟨(within.strings isStr).1, (within.strings isStr).2.trans larger⟩,
    within.array.trans longer⟩

theorem raised (within : Within region bound size rt) : Within region (bound + 1) size rt :=
  within.mono (Int.le_add_one le_rfl) le_rfl

theorem grown (within : Within region bound size rt) :
    Within region bound (grownSize size) rt :=
  within.mono le_rfl (by rw [grownSize]; omega)

theorem congr (within : Within region bound size rt) (strings : after.strings = rt.strings)
    (array : after.atomArray.length = rt.atomArray.length) : Within region bound size after :=
  ⟨fun isStr => within.strings (strings ▸ isStr), array ▸ within.array⟩

theorem write (within : Within region bound size rt) (isRegion : region p)
    (atMost : str.refCount ≤ bound) : Within region bound size (rt.write p (some str)) := by
  refine ⟨fun {q held} isHeld => ?_, within.array⟩
  by_cases same : q = p
  · subst same
    obtain rfl : str = held := by simpa [AtomTable.write] using isHeld
    exact ⟨isRegion, atMost⟩
  · exact within.strings (by simpa [AtomTable.write, Function.update_of_ne same] using isHeld)

/-- A structure is changed, not its count. -/
theorem rewrite (within : Within region bound size rt) (isStr : rt.strings p = some str)
    {changed : JSAtomStruct} (atMost : changed.refCount ≤ str.refCount) :
    Within region bound size (rt.write p (some changed)) :=
  within.write (within.strings isStr).1 (atMost.trans (within.strings isStr).2)

theorem erase (within : Within region bound size rt) (p : Address) :
    Within region bound size (rt.write p none) := by
  refine ⟨fun {q held} isHeld => ?_, within.array⟩
  by_cases same : q = p
  · subst same
    simp [AtomTable.write] at isHeld
  · exact within.strings (by simpa [AtomTable.write, Function.update_of_ne same] using isHeld)

theorem lower (within : Within region bound size rt) (isStr : rt.strings p = some str) :
    Within region bound size (rt.write p (some { str with refCount := str.refCount - 1 })) :=
  within.rewrite isStr (Int.sub_le_self _ Int.one_nonneg)

theorem raise (within : Within region bound size rt) (isStr : rt.strings p = some str) :
    Within region (bound + 1) size
      (rt.write p (some { str with refCount := str.refCount + 1 })) :=
  within.raised.write (within.strings isStr).1 (Int.add_le_add_right (within.strings isStr).2 1)

theorem jsResizeAtomHash (within : Within region bound size rt) {newSize : Nat}
    {enough resized : Bool} (runs : rt.jsResizeAtomHash newSize enough = some (resized, after)) :
    Within region bound size after := by
  refine jsResizeAtomHash_preserves ?_ ?_ within runs
  · intro _ _ _ hashNext within isStr
    exact within.rewrite isStr le_rfl
  · intro _ _ within strings array
    exact within.congr strings (congrArg List.length array)

theorem unlink (within : Within region bound size rt)
    (runs : AtomTable.unlink p str rt = some (i, after)) : Within region bound size after := by
  unfold AtomTable.unlink at runs
  split at runs
  · obtain ⟨-, rfl⟩ := Prod.mk.inj (Option.some_inj.mp runs)
    exact within
  · obtain ⟨⟨before, j⟩, -, runs⟩ := Option.bind_eq_some_iff.mp runs
    cases before with
    | none =>
        obtain ⟨-, rfl⟩ := Prod.mk.inj (Option.some_inj.mp runs)
        exact within.congr rfl rfl
    | some before =>
        obtain ⟨⟨q, held⟩, reads, isAfter⟩ := Option.bind_eq_some_iff.mp runs
        obtain ⟨-, rfl⟩ := Prod.mk.inj (Option.some_inj.mp isAfter)
        exact within.rewrite (read_eq_some.mp reads).2 le_rfl

theorem jsFreeAtomStruct (within : Within region bound size rt)
    (runs : rt.jsFreeAtomStruct p = some after) : Within region bound size after := by
  obtain ⟨str, isStr, runs⟩ := Option.bind_eq_some_iff.mp runs
  obtain ⟨⟨i, unlinked⟩, unlinks, runs⟩ := Option.bind_eq_some_iff.mp runs
  obtain ⟨_, -, runs⟩ := Option.bind_eq_some_iff.mp runs
  obtain ⟨_, -, runs⟩ := Option.bind_eq_some_iff.mp runs
  obtain rfl := Option.some_inj.mp runs
  refine Within.erase ?_ p
  exact (within.unlink unlinks).congr rfl (List.length_set ..)

theorem jsFreeString (within : Within region bound size rt)
    (runs : rt.jsFreeString p = some after) : Within region bound size after := by
  obtain ⟨str, isStr, runs⟩ := Option.bind_eq_some_iff.mp runs
  have lowered := within.lower isStr
  split at runs
  · split at runs
    · exact lowered.jsFreeAtomStruct runs
    · obtain rfl := Option.some_inj.mp runs
      exact lowered.erase p
  · obtain rfl := Option.some_inj.mp runs
    exact lowered

theorem jsFreeAtom (within : Within region bound size rt)
    (runs : rt.jsFreeAtom v = some after) : Within region bound size after := by
  unfold AtomTable.jsFreeAtom at runs
  split at runs
  · obtain rfl := Option.some_inj.mp runs
    exact within
  · obtain ⟨⟨p, str⟩, reads, runs⟩ := Option.bind_eq_some_iff.mp runs
    have lowered := within.lower (read_eq_some.mp reads).2
    simp only at runs
    split at runs
    · obtain rfl := Option.some_inj.mp runs
      exact lowered
    · exact lowered.jsFreeAtomStruct runs

/-! ## New atoms -/

theorem enter (within : Within region bound size rt)
    (runs : rt.enter p h type malloc = some (v, after)) : Within region bound size after := by
  obtain ⟨slot, isSlot, runs⟩ := Option.bind_eq_some_iff.mp runs
  cases slot with
  | atom q => cases runs
  | free next =>
      obtain ⟨str, isStr, runs⟩ := Option.bind_eq_some_iff.mp runs
      have placed : Within region bound size { rt with
          atomFreeIndex := next
          atomArray := rt.atomArray.set rt.atomFreeIndex (.atom p)
          atomCount := rt.atomCount + 1 } :=
        within.congr rfl (List.length_set ..)
      simp only at runs
      split at runs
      · obtain ⟨-, rfl⟩ := Prod.mk.inj (Option.some_inj.mp runs)
        exact placed.rewrite isStr le_rfl
      · obtain ⟨hashNext, -, runs⟩ := Option.bind_eq_some_iff.mp runs
        have hashed : Within region bound size (AtomTable.write _ p
            (some { str with hash := h, hashNext, atomType := some type })) :=
          placed.rewrite isStr le_rfl
        split at runs
        · obtain ⟨⟨resized, last⟩, resizes, isAfter⟩ := Option.bind_eq_some_iff.mp runs
          obtain ⟨-, rfl⟩ := Prod.mk.inj (Option.some_inj.mp isAfter)
          refine Within.jsResizeAtomHash ?_ resizes
          exact hashed.congr rfl rfl
        · obtain ⟨-, rfl⟩ := Prod.mk.inj (Option.some_inj.mp runs)
          exact hashed.congr rfl rfl

theorem structFor (within : Within region bound size rt) (positive : 1 ≤ bound)
    (given : ∀ q ∈ malloc.atom, region q) {str : Option Address}
    (runs : rt.structFor str malloc = some (some (p, after))) :
    Within region bound size after := by
  cases str with
  | none =>
      unfold AtomTable.structFor at runs
      cases isAtom : malloc.atom with
      | none => simp [isAtom] at runs
      | some q =>
          simp only [isAtom] at runs
          obtain ⟨-, rfl⟩ := Prod.mk.inj (Option.some_inj.mp (Option.some_inj.mp runs))
          exact within.write (given q isAtom) positive
  | some s =>
      obtain ⟨held, isHeld, runs⟩ := Option.bind_eq_some_iff.mp runs
      split at runs
      · obtain ⟨-, rfl⟩ := Prod.mk.inj (Option.some_inj.mp (Option.some_inj.mp runs))
        exact within
      · cases isAtom : malloc.atom with
        | none => simp [isAtom] at runs
        | some q =>
            simp only [isAtom] at runs
            obtain ⟨freed, frees, isAfter⟩ := Option.bind_eq_some_iff.mp runs
            obtain ⟨-, rfl⟩ := Prod.mk.inj (Option.some_inj.mp (Option.some_inj.mp isAfter))
            exact (within.write (given q isAtom) positive).jsFreeString frees

theorem fail (within : Within region bound size rt) {str : Option Address}
    (runs : rt.fail str = some (v, after)) : Within region bound size after := by
  cases str with
  | none =>
      obtain ⟨-, rfl⟩ := Prod.mk.inj (Option.some_inj.mp runs)
      exact within
  | some s =>
      obtain ⟨freed, frees, isAfter⟩ := Option.bind_eq_some_iff.mp runs
      obtain ⟨-, rfl⟩ := Prod.mk.inj (Option.some_inj.mp isAfter)
      exact within.jsFreeString frees

theorem grow (within : Within region bound size rt) (positive : 1 ≤ bound)
    (given : ∀ q ∈ malloc.nullAtom, region q) (runs : rt.grow malloc = some (some after)) :
    Within region bound (grownSize size) after := by
  have array := within.array
  obtain ⟨_, -, runs⟩ := Option.bind_eq_some_iff.mp runs
  simp only [Option.pure_def] at runs
  split at runs
  · cases runs
  split at runs
  · cases runs
  split at runs
  · cases isNull : malloc.nullAtom with
    | none => simp [isNull] at runs
    | some p =>
        simp only [isNull, Option.some_inj] at runs
        subst runs
        refine ⟨(within.write (given p isNull) positive).strings, ?_⟩
        simp only [List.length_cons, freeSlots, List.length_map, List.length_range', grownSize]
        omega
  · simp only [Option.some_inj] at runs
    subst runs
    refine ⟨within.strings, ?_⟩
    simp only [List.length_append, freeSlots, List.length_map, List.length_range', grownSize]
    omega

theorem room (within : Within region bound size rt) (positive : 1 ≤ bound)
    (given : ∀ q ∈ malloc.nullAtom, region q) (runs : rt.room malloc = some (some after)) :
    Within region bound (grownSize size) after := by
  unfold AtomTable.room at runs
  split at runs
  · exact within.grow positive given runs
  · obtain rfl := Option.some_inj.mp (Option.some_inj.mp runs)
    exact within.grown

theorem makeAtom (within : Within region bound size rt) (positive : 1 ≤ bound)
    (given : ∀ q ∈ given malloc, region q) {str : Option Address}
    (runs : rt.makeAtom str h type malloc = some (v, after)) :
    Within region bound (grownSize size) after := by
  have givenNull : ∀ q ∈ malloc.nullAtom, region q := by
    intro q isNull
    exact given q (by simp [AtomTable.given, Option.mem_def.mp isNull])
  have givenAtom : ∀ q ∈ malloc.atom, region q := by
    intro q isAtom
    exact given q (by simp [AtomTable.given, Option.mem_def.mp isAtom])
  obtain ⟨grown, grows, runs⟩ := Option.bind_eq_some_iff.mp runs
  cases grown with
  | none => exact within.grown.fail runs
  | some mid =>
      have withinMid := within.room positive givenNull grows
      obtain ⟨found, finds, runs⟩ := Option.bind_eq_some_iff.mp runs
      cases found with
      | none => exact withinMid.fail runs
      | some entry =>
          obtain ⟨p, ready⟩ := entry
          exact (withinMid.structFor positive givenAtom finds).enter runs

theorem internAtom (within : Within region bound size rt) (positive : 1 ≤ bound)
    (given : ∀ q ∈ given malloc, region q)
    (runs : rt.internAtom p type malloc = some (v, after)) :
    Within region (bound + 1) (grownSize size) after := by
  obtain ⟨held, isHeld, runs⟩ := Option.bind_eq_some_iff.mp runs
  split at runs
  · obtain ⟨i, -, runs⟩ := Option.bind_eq_some_iff.mp runs
    split at runs
    · obtain ⟨-, rfl⟩ := Prod.mk.inj (Option.some_inj.mp runs)
      exact (within.lower isHeld).raised.grown
    · obtain ⟨-, rfl⟩ := Prod.mk.inj (Option.some_inj.mp runs)
      exact within.raised.grown
  · obtain ⟨found, finds, runs⟩ := Option.bind_eq_some_iff.mp runs
    cases found with
    | none => exact (within.makeAtom positive given runs).raised
    | some found =>
        obtain ⟨before, i, q, entry⟩ := found
        obtain ⟨freed, frees, isAfter⟩ := Option.bind_eq_some_iff.mp runs
        obtain ⟨-, rfl⟩ := Prod.mk.inj (Option.some_inj.mp isAfter)
        refine Within.grown (Within.jsFreeString ?_ frees)
        split
        · exact within.raised
        · exact within.raise (strings_of_find finds)

theorem newAtom (within : Within region bound size rt) (positive : 1 ≤ bound)
    (given : ∀ q ∈ given malloc, region q) {str : Option Address}
    (runs : rt.newAtom str type malloc = some (v, after)) :
    Within region (bound + 1) (grownSize size) after := by
  cases type with
  | symbol => exact (within.makeAtom positive given runs).raised
  | privateSymbol => exact (within.makeAtom positive given runs).raised
  | string | globalSymbol =>
      obtain ⟨p, -, runs⟩ := Option.bind_eq_some_iff.mp runs
      exact within.internAtom positive given runs

theorem jsNewAtomStr (within : Within region bound size rt) (positive : 1 ≤ bound)
    (given : ∀ q ∈ given malloc, region q)
    (runs : rt.jsNewAtomStr p malloc = some (v, after)) :
    Within region (bound + 1) (grownSize size) after := by
  obtain ⟨str, -, runs⟩ := Option.bind_eq_some_iff.mp runs
  cases isNumber : isNumString str.string with
  | none =>
      simp only [isNumber] at runs
      exact within.newAtom positive given runs
  | some n =>
      simp only [isNumber] at runs
      split at runs
      · obtain ⟨freed, frees, isAfter⟩ := Option.bind_eq_some_iff.mp runs
        obtain ⟨-, rfl⟩ := Prod.mk.inj (Option.some_inj.mp isAfter)
        exact (within.jsFreeString frees).raised.grown
      · exact within.newAtom positive given runs

theorem findAtom (within : Within region bound size rt) {name : Bytes}
    (runs : rt.findAtom name = some (v, after)) :
    Within region (bound + 1) size after ∧ (v = jsAtomNull → after = rt) := by
  obtain ⟨found, finds, runs⟩ := Option.bind_eq_some_iff.mp runs
  cases found with
  | none =>
      obtain ⟨-, rfl⟩ := Prod.mk.inj (Option.some_inj.mp runs)
      exact ⟨within.raised, fun _ => rfl⟩
  | some found =>
      obtain ⟨before, i, q, entry⟩ := found
      simp only at runs
      split at runs
      · obtain ⟨-, rfl⟩ := Prod.mk.inj (Option.some_inj.mp runs)
        exact ⟨within.raised, fun _ => rfl⟩
      · next notConst =>
          obtain ⟨rfl, rfl⟩ := Prod.mk.inj (Option.some_inj.mp runs)
          refine ⟨within.raise (strings_of_find finds), ?_⟩
          rintro rfl
          exact absurd (by simp [atomIsConst, jsAtomNull, jsAtomEnd_eq]) notConst

theorem jsNewStringLen (within : Within region bound size rt) (positive : 1 ≤ bound)
    (given : ∀ q ∈ given malloc, region q) {buf : Bytes} {made : Option Address}
    (runs : rt.jsNewStringLen buf malloc = (made, after)) : Within region bound size after := by
  unfold AtomTable.jsNewStringLen at runs
  split at runs
  · next string p _ isString =>
      obtain ⟨-, rfl⟩ := Prod.mk.inj runs
      exact within.write (given p (by simp [AtomTable.given, isString])) positive
  · obtain ⟨-, rfl⟩ := Prod.mk.inj runs
    exact within

theorem jsNewAtomLen (within : Within region bound size rt) (positive : 1 ≤ bound)
    (given : ∀ q ∈ given malloc, region q) {name : Bytes}
    (runs : rt.jsNewAtomLen name malloc = some (v, after)) :
    Within region (bound + 1) (grownSize size) after := by
  obtain ⟨⟨atom, mid⟩, finds, goesOn⟩ := Option.bind_eq_some_iff.mp runs
  have found : Within region (bound + 1) size mid ∧ (atom = jsAtomNull → mid = rt) := by
    split at finds
    · exact within.findAtom finds
    · obtain ⟨-, rfl⟩ := Prod.mk.inj (Option.some_inj.mp finds)
      exact ⟨within.raised, fun _ => rfl⟩
  simp only at goesOn
  split at goesOn
  · obtain ⟨-, rfl⟩ := Prod.mk.inj (Option.some_inj.mp goesOn)
    exact found.1.grown
  · next isNull =>
      obtain rfl := found.2 (of_not_not isNull)
      cases makes : mid.jsNewStringLen name malloc with
      | mk made last =>
          have withinLast := within.jsNewStringLen positive given makes
          simp only [makes] at goesOn
          cases made with
          | none =>
              obtain ⟨-, rfl⟩ := Prod.mk.inj (Option.some_inj.mp goesOn)
              exact withinLast.raised.grown
          | some p => exact withinLast.jsNewAtomStr positive given goesOn

theorem jsNewAtomUInt32 (within : Within region bound size rt) (positive : 1 ≤ bound)
    (given : ∀ q ∈ given malloc, region q) {n : Nat}
    (runs : rt.jsNewAtomUInt32 n malloc = some (v, after)) :
    Within region (bound + 1) (grownSize size) after := by
  unfold AtomTable.jsNewAtomUInt32 at runs
  split at runs
  · obtain ⟨-, rfl⟩ := Prod.mk.inj (Option.some_inj.mp runs)
    exact within.raised.grown
  · cases makes : rt.jsNewStringLen (printUInt n) malloc with
    | mk made last =>
        have withinLast := within.jsNewStringLen positive given makes
        simp only [makes] at runs
        cases made with
        | none =>
            obtain ⟨-, rfl⟩ := Prod.mk.inj (Option.some_inj.mp runs)
            exact withinLast.raised.grown
        | some p => exact withinLast.newAtom positive given runs

/-! ## References -/

theorem jsDupAtom (within : Within region bound size rt) {w : JSAtom}
    (runs : rt.jsDupAtom v = some (w, after)) : Within region (bound + 1) size after := by
  unfold AtomTable.jsDupAtom at runs
  split at runs
  · obtain ⟨-, rfl⟩ := Prod.mk.inj (Option.some_inj.mp runs)
    exact within.raised
  · obtain ⟨⟨p, str⟩, reads, isAfter⟩ := Option.bind_eq_some_iff.mp runs
    obtain ⟨-, rfl⟩ := Prod.mk.inj (Option.some_inj.mp isAfter)
    exact within.raise (read_eq_some.mp reads).2

theorem jsDupString (within : Within region bound size rt)
    (runs : rt.jsDupString p = some after) : Within region (bound + 1) size after := by
  obtain ⟨str, isStr, isAfter⟩ := Option.bind_eq_some_iff.mp runs
  obtain rfl := Option.some_inj.mp isAfter
  exact within.raise isStr

theorem jsAtomToString (within : Within region bound size rt) (positive : 1 ≤ bound)
    (given : ∀ q ∈ given malloc, region q) {made : Option Address}
    (runs : rt.jsAtomToString v malloc = some (made, after)) :
    Within region (bound + 1) size after := by
  unfold AtomTable.jsAtomToString at runs
  split at runs
  · exact (within.jsNewStringLen positive given (Option.some_inj.mp runs)).raised
  · obtain ⟨⟨p, str⟩, -, runs⟩ := Option.bind_eq_some_iff.mp runs
    obtain ⟨q, -, runs⟩ := Option.bind_eq_some_iff.mp runs
    obtain ⟨last, dups, isAfter⟩ := Option.bind_eq_some_iff.mp runs
    obtain ⟨-, rfl⟩ := Prod.mk.inj (Option.some_inj.mp isAfter)
    exact within.jsDupString dups

end Within

/-- The first atoms are in the memory that is given for them, each with one reference. -/
theorem Starting.within {mallocs : Nat → Mallocs} (starting : Starting mallocs i rt)
    (isGiven : ∀ j < i, ∀ p ∈ given (mallocs j), region p) : Within region 1 400 rt := by
  refine ⟨fun {p str} isStr => ?_, starting.order.small⟩
  have isContent : rt.content p = some (str.refCount, str.string, str.atomType) :=
    content_eq_some.mpr ⟨str, isStr, rfl⟩
  obtain ⟨j, before, member⟩ := starting.memory p (by simp [isContent])
  refine ⟨isGiven j before p member, ?_⟩
  have due := starting.due isContent
  by_cases isPlaced : ∃ k, rt.place k = some p
  · obtain ⟨k, isPlace⟩ := isPlaced
    have total := due.atom k isPlace
    have atMost : counted (fun _ => 0) k ≤ 1 := by
      unfold counted
      split
      · exact le_rfl
      · exact Nat.zero_le 1
    omega
  · have total := due.string (not_exists.mp isPlaced)
    omega

/-! ## Memory that goes on and on -/

namespace Within

variable {k : Nat}

theorem available (within : Within (fun p => p < 3 * k) bound size rt) :
    Available (successive k) rt := by
  have isFree : ∀ p : Nat, 3 * k ≤ p → rt.strings p = none := by
    intro p large
    by_contra isUsed
    obtain ⟨str, isStr⟩ := Option.ne_none_iff_exists'.mp isUsed
    exact absurd (within.strings isStr).1 (Nat.not_lt.mpr large)
  have first := isFree (3 * k) le_rfl
  have second := isFree (3 * k + 1) (by omega)
  have third := isFree (3 * k + 2) (by omega)
  refine ⟨⟨?_, ?_, ?_⟩, ?_, ?_⟩ <;> simp [successive, first, second, third]

theorem suffices_successive (within : Within region bound size rt)
    (notLarge : grownSize size ≤ jsAtomMax) : Suffices (successive k) rt := by
  refine ⟨by simp [successive], fun _ => ⟨?_, rfl, by simp [successive]⟩⟩
  have array := within.array
  rw [grownSize] at notLarge
  omega

theorem later (within : Within (fun p => p < 3 * k) bound size rt) :
    Within (fun p => p < 3 * (k + 1)) bound size rt := by
  refine ⟨fun {p str} isStr => ⟨?_, (within.strings isStr).2⟩, within.array⟩
  exact Nat.lt_of_lt_of_le (within.strings isStr).1 (Nat.mul_le_mul_left 3 (Nat.le_succ k))

end Within

theorem given_successive (k : Nat) : ∀ p ∈ given (successive k), p < 3 * (k + 1) := by
  intro p member
  simp only [given, successive, Option.toList_some, List.cons_append, List.nil_append,
    List.mem_cons, List.not_mem_nil, or_false] at member
  unfold Address at *
  omega

end AtomTable

end Jib.QuickJS
