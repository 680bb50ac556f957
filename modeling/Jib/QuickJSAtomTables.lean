import Jib.QuickJSAtoms

/-!
# The table of the atoms

What holds of the array, the list of its free places and the chains of the hash
table whatever the references are.  Each operation is seen by the structures
that atoms have and by what these hold.
-/

namespace Jib.QuickJS

open HashChains

namespace AtomSlot

def isAtom : AtomSlot → Bool
  | .atom _ => true
  | .free _ => false

def pointer? : AtomSlot → Option Address
  | .atom p => some p
  | .free _ => none

def next? : AtomSlot → Option Nat
  | .atom _ => none
  | .free next => some next

end AtomSlot

namespace AtomTable

variable {rt after : AtomTable} {i j : Nat} {p q : Address} {str : JSAtomStruct}

/-- The structure of an atom. -/
def place (rt : AtomTable) (i : Nat) : Option Address :=
  rt.atomArray[i]?.bind AtomSlot.pointer?

/-- The next free place after a free place. -/
def nextFree (rt : AtomTable) (i : Nat) : Option Nat :=
  rt.atomArray[i]?.bind AtomSlot.next?

/-- The first place of a chain. -/
def head (rt : AtomTable) (index : Nat) : Option Nat :=
  rt.atomHash[index]?.bind link

/-- What a structure holds, without links. -/
def content (rt : AtomTable) (p : Address) : Option (Int × JSString × Option AtomType) :=
  (rt.strings p).map fun str => (str.refCount, str.string, str.atomType)

/-! ## Reading and writing -/

theorem link_zero : link 0 = none :=
  rfl

theorem link_of_ne_zero (notZero : i ≠ 0) : link i = some i :=
  if_neg notZero

theorem place_eq_some : rt.place i = some p ↔ rt.atomArray[i]? = some (.atom p) := by
  rw [place, Option.bind_eq_some_iff]
  constructor
  · rintro ⟨slot, isSlot, isPointer⟩
    cases slot <;> simp_all [AtomSlot.pointer?]
  · exact fun isSlot => ⟨_, isSlot, rfl⟩

theorem nextFree_eq_some {next : Nat} :
    rt.nextFree i = some next ↔ rt.atomArray[i]? = some (.free next) := by
  rw [nextFree, Option.bind_eq_some_iff]
  constructor
  · rintro ⟨slot, isSlot, isNext⟩
    cases slot <;> simp_all [AtomSlot.next?]
  · exact fun isSlot => ⟨_, isSlot, rfl⟩

theorem read_eq (rt : AtomTable) (i : Nat) :
    rt.read i = (rt.place i).bind fun p => (rt.strings p).map (p, ·) := by
  unfold read place
  cases rt.atomArray[i]? with
  | none => rfl
  | some slot =>
      cases slot with
      | free next => rfl
      | atom q => cases isStr : rt.strings q <;> simp [isStr, AtomSlot.pointer?]

theorem read_eq_some :
    rt.read i = some (p, str) ↔ rt.place i = some p ∧ rt.strings p = some str := by
  rw [read_eq]
  simp only [Option.bind_eq_some_iff, Option.map_eq_some_iff, Prod.mk.injEq]
  constructor
  · rintro ⟨q, isPlace, held, isStr, rfl, rfl⟩
    exact ⟨isPlace, isStr⟩
  · rintro ⟨isPlace, isStr⟩
    exact ⟨p, isPlace, str, isStr, rfl, rfl⟩

theorem lt_of_place (isPlace : rt.place i = some p) : i < rt.atomArray.length :=
  (List.getElem?_eq_some_iff.mp (place_eq_some.mp isPlace)).1

@[simp]
theorem atomArray_write (rt : AtomTable) (p : Address) (str : Option JSAtomStruct) :
    (rt.write p str).atomArray = rt.atomArray :=
  rfl

@[simp]
theorem atomHash_write (rt : AtomTable) (p : Address) (str : Option JSAtomStruct) :
    (rt.write p str).atomHash = rt.atomHash :=
  rfl

@[simp]
theorem place_write (rt : AtomTable) (p : Address) (str : Option JSAtomStruct) :
    (rt.write p str).place = rt.place :=
  rfl

theorem strings_write (rt : AtomTable) (p : Address) (str : Option JSAtomStruct) :
    (rt.write p str).strings = Function.update rt.strings p str :=
  rfl

theorem content_eq_some {held : Int × JSString × Option AtomType} :
    rt.content p = some held ↔
      ∃ str, rt.strings p = some str ∧ (str.refCount, str.string, str.atomType) = held :=
  Option.map_eq_some_iff

theorem content_write (rt : AtomTable) (p : Address) (str : Option JSAtomStruct) :
    (rt.write p str).content = Function.update rt.content p
      (str.map fun str => (str.refCount, str.string, str.atomType)) := by
  funext q
  by_cases same : q = p
  · subst same
    simp [content, strings_write]
  · simp [content, strings_write, same]

/-- A change of a link alone. -/
theorem content_write_link (isStr : rt.strings p = some str) (hashNext : Nat) :
    (rt.write p (some { str with hashNext })).content = rt.content := by
  rw [content_write]
  refine Function.update_eq_self_iff.mpr ?_
  simp [content, isStr]

theorem read_write_of_ne (others : rt.place i ≠ some p) (str : Option JSAtomStruct) :
    (rt.write p str).read i = rt.read i := by
  rw [read_eq, read_eq, place_write, strings_write]
  cases isPlace : rt.place i with
  | none => rfl
  | some q =>
      have isOther : q ≠ p := by
        rintro rfl
        exact others isPlace
      simp [isOther]

/-- A string atom is in the hash table. -/
def Hashed (rt : AtomTable) (i : Nat) : Prop :=
  ∃ p str type, rt.read i = some (p, str) ∧ str.atomType = some type ∧ type ≠ .symbol

/-- The array, its structures and its free places fit together. -/
structure Structured (rt : AtomTable) : Prop where
  apart : ∀ {i j p}, rt.place i = some p → rt.place j = some p → i = j
  null : rt.atomArray ≠ [] → ∃ p str, rt.read 0 = some (p, str) ∧ str.atomType = some .symbol
  placed : ∀ {i p}, rt.place i = some p → ∃ str type, rt.strings p = some str ∧
    str.atomType = some type ∧ type ≠ .privateSymbol ∧ (type = .symbol → str.hashNext = i) ∧
      (type ≠ .symbol → str.hash = atomHashOf str.string type)
  plain : ∀ {p str}, rt.strings p = some str → (∀ i, rt.place i ≠ some p) → str.atomType = none
  unique : ∀ {i j p q str other type}, rt.read i = some (p, str) → rt.read j = some (q, other) →
    str.atomType = some type → other.atomType = some type → type ≠ .symbol →
      str.string.units = other.string.units → i = j
  free : ∃ places, Chain rt.nextFree link (link rt.atomFreeIndex) places ∧ places.Nodup ∧
    ∀ i, i ∈ places ↔ ∃ next, rt.nextFree i = some next
  count : rt.atomCount = rt.atomArray.countP AtomSlot.isAtom
  small : rt.atomArray.length ≤ jsAtomMax

/-- The hash table has a size that the masks are for, and the string atoms in its chains. -/
structure Formed (rt : AtomTable) : Prop extends Structured rt where
  size : ∃ bits, rt.atomHash.length = 2 ^ bits
  table : Table rt.read next rt.head (fun entry => rt.bucket entry.2.hash) rt.Hashed

/-- The same structure but for its count and a link of the hash table. -/
structure SameStruct (str changed : JSAtomStruct) : Prop where
  string : changed.string = str.string
  hash : changed.hash = str.hash
  atomType : changed.atomType = str.atomType
  hashNext : str.atomType = some .symbol → changed.hashNext = str.hashNext

theorem Structured.ne_zero_of_hashed (structured : rt.Structured) (hashed : rt.Hashed i) :
    i ≠ 0 := by
  rintro rfl
  obtain ⟨p, str, type, reads, isType, notSymbol⟩ := hashed
  have notEmpty : rt.atomArray ≠ [] := by
    rintro empty
    have inside := lt_of_place (read_eq_some.mp reads).1
    simp [empty] at inside
  obtain ⟨q, other, readsNull, isSymbol⟩ := structured.null notEmpty
  obtain ⟨rfl, rfl⟩ := Prod.mk.inj (Option.some_inj.mp (reads.symm.trans readsNull))
  exact notSymbol (Option.some_inj.mp (isType.symm.trans isSymbol))

theorem bucket_lt (size : ∃ bits, rt.atomHash.length = 2 ^ bits) (hash : Nat) :
    rt.bucket hash < rt.atomHash.length := by
  obtain ⟨bits, size⟩ := size
  rw [bucket, size, Nat.and_two_pow_sub_one_eq_mod]
  exact Nat.mod_lt hash (Nat.two_pow_pos bits)

theorem place_congr (array : after.atomArray = rt.atomArray) : after.place = rt.place := by
  funext i
  rw [place, place, array]

theorem nextFree_congr (array : after.atomArray = rt.atomArray) :
    after.nextFree = rt.nextFree := by
  funext i
  rw [nextFree, nextFree, array]

theorem head_congr (hash : after.atomHash = rt.atomHash) : after.head = rt.head := by
  funext index
  rw [head, head, hash]

section Congr

/-- The array is the same and structures of atoms are alike. -/
structure Alike (rt after : AtomTable) : Prop where
  array : after.atomArray = rt.atomArray
  structs : ∀ {i p str}, rt.read i = some (p, str) →
    ∃ changed, after.strings p = some changed ∧ SameStruct str changed

namespace Alike

theorem read (alike : Alike rt after) (reads : rt.read i = some (p, str)) :
    ∃ changed, after.read i = some (p, changed) ∧ SameStruct str changed := by
  obtain ⟨changed, isThere, same⟩ := alike.structs reads
  exact ⟨changed, read_eq_some.mpr ⟨place_congr alike.array ▸ (read_eq_some.mp reads).1, isThere⟩,
    same⟩

theorem read_back (alike : Alike rt after) (structured : rt.Structured)
    (reads : after.read i = some (p, str)) :
    ∃ before, rt.read i = some (p, before) ∧ SameStruct before str := by
  obtain ⟨isPlace, isStr⟩ := read_eq_some.mp reads
  rw [place_congr alike.array] at isPlace
  obtain ⟨before, type, isBefore, -⟩ := structured.placed isPlace
  have readsBefore := read_eq_some.mpr ⟨isPlace, isBefore⟩
  obtain ⟨changed, isThere, same⟩ := alike.structs readsBefore
  obtain rfl := Option.some_inj.mp (isStr.symm.trans isThere)
  exact ⟨before, readsBefore, same⟩

theorem hashed (alike : Alike rt after) (structured : rt.Structured) (i : Nat) :
    after.Hashed i ↔ rt.Hashed i := by
  constructor
  · rintro ⟨p, str, type, reads, isType, notSymbol⟩
    obtain ⟨before, readsBefore, same⟩ := alike.read_back structured reads
    exact ⟨p, before, type, readsBefore, same.atomType.symm.trans isType, notSymbol⟩
  · rintro ⟨p, str, type, reads, isType, notSymbol⟩
    obtain ⟨changed, readsAfter, same⟩ := alike.read reads
    exact ⟨p, changed, type, readsAfter, same.atomType.trans isType, notSymbol⟩

theorem structured (alike : Alike rt after) (structured : rt.Structured)
    (freeIndex : after.atomFreeIndex = rt.atomFreeIndex) (count : after.atomCount = rt.atomCount)
    (plain : ∀ p str, (∀ i, rt.place i ≠ some p) → after.strings p = some str →
      str.atomType = none) : after.Structured := by
  have places := place_congr alike.array
  refine ⟨places ▸ structured.apart, fun notEmpty => ?_, fun isPlace => ?_,
    fun isStr notPlaced => plain _ _ (places ▸ notPlaced) isStr, ?_, ?_, ?_,
    alike.array ▸ structured.small⟩
  · obtain ⟨p, str, reads, isSymbol⟩ := structured.null (alike.array ▸ notEmpty)
    obtain ⟨changed, readsAfter, same⟩ := alike.read reads
    exact ⟨p, changed, readsAfter, same.atomType.trans isSymbol⟩
  · rw [places] at isPlace
    obtain ⟨str, type, isStr, isType, notPrivate, index, hash⟩ := structured.placed isPlace
    obtain ⟨changed, isThere, same⟩ := alike.structs (read_eq_some.mpr ⟨isPlace, isStr⟩)
    refine ⟨changed, type, isThere, same.atomType.trans isType, notPrivate, fun isSymbol => ?_,
      fun notSymbol => ?_⟩
    · rw [same.hashNext (isType.trans (congrArg some isSymbol)), index isSymbol]
    · rw [same.hash, same.string, hash notSymbol]
  · intro i j p q str other type reads readsOther isType otherType notSymbol sameUnits
    obtain ⟨before, readsBefore, same⟩ := alike.read_back structured reads
    obtain ⟨before', readsBefore', same'⟩ := alike.read_back structured readsOther
    exact structured.unique readsBefore readsBefore' (same.atomType.symm.trans isType)
      (same'.atomType.symm.trans otherType) notSymbol (by
        rw [← same.string, sameUnits, same'.string])
  · obtain ⟨free, chain, nodup, isFree⟩ := structured.free
    have frees := nextFree_congr alike.array
    exact ⟨free, by rwa [frees, freeIndex], nodup, by rwa [frees]⟩
  · rw [count, alike.array]
    exact structured.count

end Alike

/-- Only counts change, of structures that atoms have; other strings are made or freed. -/
theorem Formed.congr (formed : rt.Formed) (hash : after.atomHash = rt.atomHash)
    (array : after.atomArray = rt.atomArray) (freeIndex : after.atomFreeIndex = rt.atomFreeIndex)
    (count : after.atomCount = rt.atomCount)
    (counts : ∀ {i p str}, rt.read i = some (p, str) →
      ∃ refCount, after.strings p = some { str with refCount })
    (plain : ∀ p str, (∀ i, rt.place i ≠ some p) → after.strings p = some str →
      str.atomType = none) : after.Formed := by
  have alike : Alike rt after := ⟨array, fun reads => by
    obtain ⟨refCount, isThere⟩ := counts reads
    exact ⟨_, isThere, rfl, rfl, rfl, fun _ => rfl⟩⟩
  have table : Table after.read next after.head (fun entry => rt.bucket entry.2.hash)
      rt.Hashed := by
    refine formed.table.congr_entries ?_ fun index => congrFun (head_congr hash) index
    rintro i - ⟨p, str⟩ reads
    obtain ⟨refCount, isThere⟩ := counts reads
    exact ⟨_, read_eq_some.mpr ⟨place_congr array ▸ (read_eq_some.mp reads).1, isThere⟩, rfl, rfl⟩
  refine ⟨alike.structured formed.toStructured freeIndex count plain, hash ▸ formed.size, ?_⟩
  simpa only [bucket, hash] using table.congr_members (alike.hashed formed.toStructured)

end Congr

/-! ## Finding atoms -/

namespace Formed

theorem lt_of_hashed (hashed : rt.Hashed i) : i ∈ List.range rt.atomArray.length := by
  obtain ⟨p, str, type, reads, -⟩ := hashed
  exact List.mem_range.mpr (lt_of_place (read_eq_some.mp reads).1)

theorem find_head (formed : rt.Formed) (found : Nat → Address × JSAtomStruct → Bool)
    (hash : Nat) : rt.find found hash =
      search rt.read next found (rt.atomArray.length + 1) none (rt.head (rt.bucket hash)) := by
  have inside := bucket_lt formed.size hash
  simp [find, head, List.getElem?_eq_getElem inside]

theorem find_eq (formed : rt.Formed) (found : Nat → Address × JSAtomStruct → Bool) (hash : Nat) :
    (rt.find found hash = some none ∧ ∀ i entry, rt.Hashed i → rt.read i = some entry →
      rt.bucket entry.2.hash = rt.bucket hash → found i entry = false) ∨
    ∃ before i entry, rt.find found hash = some (some (before, i, entry)) ∧ rt.Hashed i ∧
      rt.read i = some entry ∧ found i entry = true := by
  have enough : (List.range rt.atomArray.length).length < rt.atomArray.length + 1 := by simp
  rcases formed.table.search_eq (fun _ => lt_of_hashed) enough found (rt.bucket hash) with
    ⟨ends, nowhere⟩ | ⟨before, i, entry, finds, hashed, reads, -, isFound⟩
  · exact .inl ⟨(formed.find_head found hash).trans ends, nowhere⟩
  · exact .inr ⟨before, i, entry, (formed.find_head found hash).trans finds, hashed, reads, isFound⟩

/-- The loops that look for a structure find it, with what leads to it. -/
theorem exists_findStruct (formed : rt.Formed) (reads : rt.read i = some (p, str))
    (hashed : rt.Hashed i) : ∃ before, rt.findStruct p str.hash = some (before, i) ∧
      (∀ other ∈ before, rt.Hashed other ∧ other ≠ i) ∧
      ∀ (changed : Nat → Option (Address × JSAtomStruct)) (heads : Nat → Option Nat),
        Unlinked rt.read next rt.head (fun entry => rt.bucket entry.2.hash) i (p, str) changed heads
          before →
        Table changed next heads (fun entry => rt.bucket entry.2.hash) fun other =>
          rt.Hashed other ∧ other ≠ i := by
  have enough : (List.range rt.atomArray.length).length < rt.atomArray.length + 1 := by simp
  have only : ∀ (other : Nat) (held : Address × JSAtomStruct), rt.Hashed other →
      rt.read other = some held → rt.bucket held.2.hash = rt.bucket str.hash →
        ((held.1 == p) = true ↔ other = i) := by
    intro other held _ readsOther _
    rw [beq_iff_eq]
    constructor
    · rintro rfl
      exact formed.apart (read_eq_some.mp readsOther).1 (read_eq_some.mp reads).1
    · rintro rfl
      exact congrArg Prod.fst (Option.some_inj.mp (readsOther.symm.trans reads))
  obtain ⟨before, finds, others, unlinks⟩ :=
    formed.table.exists_search (fun _ => lt_of_hashed) enough hashed reads only
  refine ⟨before, ?_, others, unlinks⟩
  have head := (formed.find_head (fun _ entry => entry.1 == p) str.hash).trans finds
  simp [findStruct, head]

/-- Every structure knows its index. -/
theorem jsGetAtomIndex_eq (formed : rt.Formed) (isPlace : rt.place i = some p) :
    rt.jsGetAtomIndex p = some i := by
  obtain ⟨str, type, isStr, isType, -, index, -⟩ := formed.placed isPlace
  have reads := read_eq_some.mpr ⟨isPlace, isStr⟩
  by_cases isSymbol : type = .symbol
  · simp [jsGetAtomIndex, isStr, isType, isSymbol, index isSymbol]
  · obtain ⟨before, finds, -⟩ :=
      formed.exists_findStruct reads ⟨p, str, type, reads, isType, isSymbol⟩
    simp [jsGetAtomIndex, isStr, isType, isSymbol, finds]

end Formed

/-! ## Resizing the hash table -/

/-- The chains of the new hash table while it is filled. -/
def newHead (state : AtomTable × List Nat) (index : Nat) : Option Nat :=
  state.2[index]?.bind link

/-- What stays the same while the hash table is filled. -/
structure Refilled (rt : AtomTable) (newHashSize : Nat) (state : AtomTable × List Nat) : Prop where
  alike : Alike rt state.1
  hash : state.1.atomHash = rt.atomHash
  freeIndex : state.1.atomFreeIndex = rt.atomFreeIndex
  count : state.1.atomCount = rt.atomCount
  content : state.1.content = rt.content
  size : state.2.length = newHashSize

theorem Formed.relinks (formed : rt.Formed) (bits : Nat) :
    Relinks (fun state : AtomTable × List Nat => state.1.read) next newHead
      (fun entry => rt.bucket entry.2.hash) (fun entry => entry.2.hash &&& (2 ^ bits - 1)) relink
      (Refilled rt (2 ^ bits)) rt.Hashed where
  step := by
    rintro ⟨now, newHash⟩ i ⟨p, str⟩ refilled hashed reads
    have size : newHash.length = 2 ^ bits := refilled.size
    have inside : str.hash &&& (2 ^ bits - 1) < newHash.length := by
      rw [size, Nat.and_two_pow_sub_one_eq_mod]
      exact Nat.mod_lt _ (Nat.two_pow_pos bits)
    obtain ⟨isPlace, isStr⟩ := read_eq_some.mp reads
    have places := place_congr refilled.alike.array
    obtain ⟨before, readsBefore, same⟩ := refilled.alike.read_back formed.toStructured reads
    have notZero := formed.ne_zero_of_hashed hashed
    obtain ⟨_, _, type, readsHashed, isType, notSymbol⟩ := hashed
    obtain ⟨rfl, rfl⟩ := Prod.mk.inj (Option.some_inj.mp (readsBefore.symm.trans readsHashed))
    have isHashed : str.atomType ≠ some .symbol := by
      rw [same.atomType, isType]
      simpa using notSymbol
    refine ⟨(now.write p (some { str with
        hashNext := newHash[str.hash &&& (2 ^ bits - 1)] }),
      newHash.set (str.hash &&& (2 ^ bits - 1)) i),
      (p, { str with hashNext := newHash[str.hash &&& (2 ^ bits - 1)] }), ?_, ?_, ?_, rfl, rfl, ?_,
      fun other isOther => read_write_of_ne (fun samePlace => isOther ?_) _, ?_,
      fun index isOther => ?_⟩
    · simp only [size, List.getElem?_eq_getElem inside, relink, reads, Option.bind_eq_bind,
        Option.bind_some, Option.pure_def]
      rfl
    · refine ⟨⟨refilled.alike.array, fun {j q other} readsOther => ?_⟩, refilled.hash,
        refilled.freeIndex, refilled.count, (content_write_link isStr _).trans refilled.content,
        by rw [List.length_set, size]⟩
      obtain ⟨changed, isThere, alike⟩ := refilled.alike.structs readsOther
      by_cases isP : q = p
      · subst isP
        obtain rfl := Option.some_inj.mp (isStr.symm.trans isThere)
        exact ⟨_, Function.update_self _ _ _, alike.string, alike.hash, alike.atomType,
          fun isSymbol => absurd (alike.atomType.trans isSymbol) isHashed⟩
      · exact ⟨changed, by rw [strings_write, Function.update_of_ne isP, isThere], alike⟩
    · exact read_eq_some.mpr ⟨isPlace, Function.update_self _ _ _⟩
    · simp only [next, newHead, List.getElem?_eq_getElem inside, Option.bind_some]
    · exact formed.apart (places ▸ samePlace) (places ▸ isPlace)
    · simp only [newHead]
      rw [List.getElem?_set_self inside, Option.bind_some, link_of_ne_zero notZero]
    · simp only [newHead]
      rw [List.getElem?_set_ne fun same => isOther same.symm]

/-- A resize that goes through or not changes only where atoms are found. -/
theorem Formed.exists_jsResizeAtomHash (formed : rt.Formed) (bits : Nat) (malloc : Bool) :
    ∃ resized after, rt.jsResizeAtomHash (2 ^ bits) malloc = some (resized, after) ∧
      after.Formed ∧ after.atomArray = rt.atomArray ∧ after.content = rt.content ∧
      after.atomFreeIndex = rt.atomFreeIndex := by
  cases malloc with
  | false =>
      exact ⟨false, rt, by simp [jsResizeAtomHash, guard], formed, rfl, rfl, rfl⟩
  | true =>
      have enough : (List.range rt.atomArray.length).length < rt.atomArray.length + 1 := by simp
      have start : Refilled rt (2 ^ bits) (rt, List.replicate (2 ^ bits) 0) :=
        ⟨⟨rfl, fun {i p str} reads =>
          ⟨str, (read_eq_some.mp reads).2, rfl, rfl, rfl, fun _ => rfl⟩⟩, rfl, rfl, rfl, rfl,
          by simp⟩
      have reads : ∀ state : AtomTable × List Nat, Refilled rt (2 ^ bits) state →
          ∀ index ∈ List.range rt.atomHash.length,
            state.1.atomHash[index]?.map link = some (rt.head index) := by
        intro state refilled index inside
        rw [refilled.hash, head, List.getElem?_eq_getElem (List.mem_range.mp inside)]
        rfl
      have covers : ∀ index, index ∉ List.range rt.atomHash.length → rt.head index = none := by
        intro index outside
        rw [List.mem_range, not_lt] at outside
        simp [head, List.getElem?_eq_none outside]
      have empty : ∀ index, newHead (rt, List.replicate (2 ^ bits) 0) index = none := by
        intro index
        rw [newHead, List.getElem?_replicate]
        split <;> rfl
      obtain ⟨⟨after, newHash⟩, runs, refilled, table⟩ := (formed.relinks bits).exists_rehash start
        formed.table reads List.nodup_range covers empty (fun _ => lt_of_hashed) enough
      have structured : after.Structured := refilled.alike.structured formed.toStructured
        refilled.freeIndex refilled.count fun p str notPlaced isStr => by
          obtain ⟨before, isBefore, same⟩ := content_eq_some.mp
            ((congrFun refilled.content p).symm.trans (content_eq_some.mpr ⟨str, isStr, rfl⟩))
          obtain ⟨-, -, sameType⟩ := Prod.mk.inj same |>.imp_right Prod.mk.inj
          exact sameType ▸ formed.plain isBefore notPlaced
      refine ⟨true, { after with atomHash := newHash, atomCountResize := 2 ^ bits * 2 }, ?_,
        ⟨?_, ⟨bits, refilled.size⟩, ?_⟩, refilled.alike.array, refilled.content, refilled.freeIndex⟩
      · simp [jsResizeAtomHash, guard, runs]
      · exact ⟨structured.apart, structured.null, structured.placed, structured.plain,
          structured.unique, structured.free, structured.count, structured.small⟩
      · have size : newHash.length = 2 ^ bits := refilled.size
        simp only [bucket, size]
        exact table.congr_members (refilled.alike.hashed formed.toStructured)

/-! ## More places -/

theorem countP_freeSlots (start newSize : Nat) :
    (freeSlots start newSize).countP AtomSlot.isAtom = 0 := by
  simp [freeSlots, AtomSlot.isAtom, List.countP_eq_zero]

theorem getElem?_append_freeSlots (front : List AtomSlot) (newSize i : Nat) :
    (front ++ freeSlots front.length newSize)[i]? =
      if i < front.length then front[i]?
      else if i < newSize then some (.free (if i = newSize - 1 then 0 else i + 1)) else none := by
  split
  · next inside => exact List.getElem?_append_left inside
  · next outside =>
      obtain ⟨k, rfl⟩ := Nat.exists_eq_add_of_le (Nat.le_of_not_lt outside)
      rw [List.getElem?_append_right (Nat.le_add_right _ _), Nat.add_sub_cancel_left]
      split
      · next isNew =>
          have short : k < newSize - front.length := by omega
          simp [freeSlots, short]
      · next beyond =>
          refine List.getElem?_eq_none ?_
          simp only [freeSlots, List.length_map, List.length_range']
          omega

section Extended

variable {front : List AtomSlot} {newSize : Nat}

theorem place_extended (array : after.atomArray = front ++ freeSlots front.length newSize)
    (i : Nat) : after.place i = front[i]?.bind AtomSlot.pointer? := by
  rw [place, array, getElem?_append_freeSlots]
  split
  · rfl
  · next outside =>
      rw [List.getElem?_eq_none (Nat.le_of_not_lt outside)]
      split <;> rfl

theorem nextFree_extended (array : after.atomArray = front ++ freeSlots front.length newSize)
    {i : Nat} (atLeast : front.length ≤ i) : after.nextFree i =
      if i < newSize then some (if i = newSize - 1 then 0 else i + 1) else none := by
  rw [nextFree, array, getElem?_append_freeSlots, if_neg (Nat.not_lt.mpr atLeast)]
  split <;> rfl

/-- The new free places are a list in their order. -/
theorem chain_freeSlots (array : after.atomArray = front ++ freeSlots front.length newSize)
    {i count : Nat} (atLeast : front.length ≤ i) (notZero : i ≠ 0) (total : i + count = newSize)
    (some_ : 0 < count) : Chain after.nextFree link (link i) (List.range' i count) := by
  induction count generalizing i with
  | zero => exact absurd some_ (Nat.lt_irrefl 0)
  | succ count ih =>
      have slot : after.nextFree i = some (if i = newSize - 1 then 0 else i + 1) := by
        rw [nextFree_extended array atLeast, if_pos (by omega)]
      rw [link_of_ne_zero notZero, List.range'_succ]
      refine .cons slot ?_
      rcases Nat.eq_zero_or_pos count with rfl | more
      · rw [if_pos (by omega)]
        exact .nil
      · rw [if_neg (by omega)]
        exact ih (by omega) (by omega) (by omega) more

end Extended

/-- The table with more places. -/
def withPlaces (rt : AtomTable) (newSize : Nat) : AtomTable :=
  { rt with
    atomArray := rt.atomArray ++ freeSlots rt.atomArray.length newSize
    atomFreeIndex := rt.atomArray.length }

/-- The table with the entry of `JS_ATOM_NULL` alone. -/
def withNull (rt : AtomTable) (p : Address) : AtomTable :=
  { rt.write p (some nullAtom) with
    atomCount := rt.atomCount + 1
    atomArray := [.atom p] }

theorem Formed.extend {newSize : Nat} (formed : rt.Formed) (noFree : rt.atomFreeIndex = 0)
    (notEmpty : rt.atomArray ≠ []) (larger : rt.atomArray.length < newSize)
    (small : newSize ≤ jsAtomMax) :
    (rt.withPlaces newSize).Formed ∧ (rt.withPlaces newSize).place = rt.place := by
  generalize isAfter : rt.withPlaces newSize = after
  have array : after.atomArray = rt.atomArray ++ freeSlots rt.atomArray.length newSize :=
    isAfter ▸ rfl
  have freeIndex : after.atomFreeIndex = rt.atomArray.length := isAfter ▸ rfl
  have strings : after.strings = rt.strings := isAfter ▸ rfl
  have hash : after.atomHash = rt.atomHash := isAfter ▸ rfl
  have count : after.atomCount = rt.atomCount := isAfter ▸ rfl
  have places : after.place = rt.place := by
    funext i
    exact place_extended array i
  have reads : after.read = rt.read := by
    funext i
    rw [read_eq, read_eq, places, strings]
  refine ⟨⟨⟨places ▸ formed.apart, fun _ => reads ▸ formed.null notEmpty, ?_, ?_, ?_, ?_, ?_, ?_⟩,
    hash ▸ formed.size, ?_⟩, places⟩
  · rw [places, strings]
    exact formed.placed
  · rw [places, strings]
    exact formed.plain
  · rw [reads]
    exact formed.unique
  · have notZero : rt.atomArray.length ≠ 0 := mt List.length_eq_zero_iff.mp notEmpty
    have chain := chain_freeSlots array le_rfl notZero (Nat.add_sub_cancel' larger.le) (by omega)
    have noneBefore : ∀ {i}, i < rt.atomArray.length → after.nextFree i = none := by
      intro i inside
      obtain ⟨free, oldChain, -, isFree⟩ := formed.free
      rw [noFree, link_zero] at oldChain
      cases oldChain
      rw [nextFree, array, List.getElem?_append_left inside, ← nextFree]
      exact Option.eq_none_iff_forall_ne_some.mpr fun next isNext =>
        List.not_mem_nil ((isFree i).mpr ⟨next, isNext⟩)
    refine ⟨_, by rwa [freeIndex], List.nodup_range', fun i => ?_⟩
    rw [List.mem_range'_1]
    by_cases inside : i < rt.atomArray.length
    · rw [noneBefore inside]
      simp
      omega
    · rw [nextFree_extended array (Nat.le_of_not_lt inside)]
      split <;> simp <;> omega
  · rw [array, List.countP_append, countP_freeSlots, Nat.add_zero, ← formed.count, count]
  · rw [array, freeSlots, List.length_append, List.length_map, List.length_range']
    omega
  · have hashed : after.Hashed = rt.Hashed := by
      funext i
      simp only [Hashed, reads]
    rw [reads, head_congr hash, hashed]
    simpa only [bucket, hash] using formed.table

theorem Formed.addNull (formed : rt.Formed) (empty : rt.atomArray = []) (p : Address) :
    (rt.withNull p).Formed ∧ (rt.withNull p).place = Function.update rt.place 0 (some p) := by
  generalize isAfter : rt.withNull p = after
  have array : after.atomArray = [.atom p] := isAfter ▸ rfl
  have freeIndex : after.atomFreeIndex = rt.atomFreeIndex := isAfter ▸ rfl
  have strings : after.strings = Function.update rt.strings p (some nullAtom) := isAfter ▸ rfl
  have hash : after.atomHash = rt.atomHash := isAfter ▸ rfl
  have count : after.atomCount = rt.atomCount + 1 := isAfter ▸ rfl
  have noPlace : ∀ i, rt.place i = none := by simp [place, empty]
  have places : after.place = Function.update rt.place 0 (some p) := by
    funext i
    cases i with
    | zero => simp [place, array, AtomSlot.pointer?]
    | succ i => simp [place, array, empty]
  have isFirst : ∀ {i q}, after.place i = some q → i = 0 ∧ q = p := by
    intro i q isPlace
    rw [places] at isPlace
    by_cases isZero : i = 0
    · subst isZero
      simpa [eq_comm] using isPlace
    · simp [isZero, noPlace] at isPlace
  have isNull : after.strings p = some nullAtom := by rw [strings, Function.update_self]
  have readsFirst : ∀ {i q str}, after.read i = some (q, str) → str = nullAtom := by
    intro i q str reads
    obtain ⟨isPlace, isStr⟩ := read_eq_some.mp reads
    obtain ⟨-, rfl⟩ := isFirst isPlace
    exact Option.some_inj.mp (isStr.symm.trans isNull)
  have noneHashed : ∀ i, ¬after.Hashed i := by
    rintro i ⟨q, str, type, reads, isType, notSymbol⟩
    obtain rfl := readsFirst reads
    exact notSymbol (Option.some_inj.mp isType).symm
  have noneBefore : ∀ i, ¬rt.Hashed i := by
    rintro i ⟨q, str, type, reads, -⟩
    simp [read_eq, noPlace] at reads
  refine ⟨⟨⟨?_, ?_, ?_, ?_, ?_, ?_, ?_, by simp [array, jsAtomMax]⟩, hash ▸ formed.size, ?_⟩,
    places⟩
  · intro i j q isPlace isOther
    rw [(isFirst isPlace).1, (isFirst isOther).1]
  · refine fun _ => ⟨p, nullAtom, read_eq_some.mpr ⟨?_, isNull⟩, rfl⟩
    rw [places, Function.update_self]
  · intro i q isPlace
    obtain ⟨rfl, rfl⟩ := isFirst isPlace
    exact ⟨nullAtom, .symbol, isNull, rfl, by simp, fun _ => rfl, absurd rfl⟩
  · intro q str isStr notPlaced
    have isOther : q ≠ p := by
      rintro rfl
      exact notPlaced 0 (by rw [places, Function.update_self])
    rw [strings, Function.update_of_ne isOther] at isStr
    exact formed.plain isStr (by simp [noPlace])
  · intro i j q q' str other type reads readsOther isType _ notSymbol
    obtain rfl := readsFirst reads
    exact absurd (Option.some_inj.mp isType).symm notSymbol
  · obtain ⟨free, chain, nodup, isFree⟩ := formed.free
    have noFree : free = [] := by
      refine List.eq_nil_iff_forall_not_mem.mpr fun i member => ?_
      obtain ⟨next, isNext⟩ := (isFree i).mp member
      simp [nextFree, empty] at isNext
    subst noFree
    refine ⟨[], ?_, List.nodup_nil, fun i => ?_⟩
    · rw [freeIndex, chain.eq_head?]
      exact .nil
    · cases i <;> simp [nextFree, array, AtomSlot.next?]
  · rw [count, formed.count, empty, array]
    rfl
  · have nothing : Table rt.read next rt.head (fun entry => rt.bucket entry.2.hash)
        fun _ => False :=
      formed.table.congr_members fun i => iff_of_false id (noneBefore i)
    have table : Table after.read next after.head (fun entry => rt.bucket entry.2.hash)
        after.Hashed :=
      (nothing.congr (fun _ no => no.elim) fun index =>
        congrFun (head_congr hash) index).congr_members fun i => iff_of_false (noneHashed i) id
    simpa only [bucket, hash] using table

/-- The places from `start` on are free, one after the other. -/
def FreeFrom (rt : AtomTable) (start : Nat) : Prop :=
  ∀ i, start ≤ i → i < rt.atomArray.length →
    rt.nextFree i = some (if i = rt.atomArray.length - 1 then 0 else i + 1)

/-- What `grow` does to atoms, where it goes through. -/
structure Grown (malloc : Mallocs) (rt after : AtomTable) : Prop where
  formed : after.Formed
  freeIndex : after.atomFreeIndex = max 1 rt.atomArray.length
  freeFrom : after.FreeFrom after.atomFreeIndex
  length : after.atomArray.length = max 211 (rt.atomArray.length * 3 / 2)
  effect : (after.place = rt.place ∧ after.strings = rt.strings) ∨
    rt.atomArray = [] ∧ ∃ p ∈ malloc.nullAtom, after.place = Function.update rt.place 0 (some p) ∧
      after.strings = Function.update rt.strings p (some nullAtom)

theorem length_withPlaces (rt : AtomTable) {newSize : Nat}
    (larger : rt.atomArray.length ≤ newSize) :
    (rt.withPlaces newSize).atomArray.length = newSize := by
  simp only [withPlaces, freeSlots, List.length_append, List.length_map, List.length_range']
  omega

theorem freeFrom_withPlaces (rt : AtomTable) (newSize : Nat)
    (larger : rt.atomArray.length ≤ newSize) :
    (rt.withPlaces newSize).FreeFrom rt.atomArray.length := by
  intro i atLeast inside
  rw [rt.length_withPlaces larger] at inside ⊢
  rw [nextFree_extended rfl atLeast, if_pos inside]

/-- There can be more places. -/
structure Extensible (malloc : Mallocs) (rt : AtomTable) : Prop where
  fits : max 211 (rt.atomArray.length * 3 / 2) ≤ jsAtomMax
  array : malloc.array = true
  nullAtom : rt.atomArray = [] → malloc.nullAtom ≠ none

theorem Formed.exists_grow (formed : rt.Formed) (noFree : rt.atomFreeIndex = 0)
    (notHuge : rt.atomArray.length * 3 < 2 ^ 31) (malloc : Mallocs) :
    ∃ grown, rt.grow malloc = some grown ∧ (grown = none → ¬Extensible malloc rt) ∧
      ∀ after ∈ grown, Grown malloc rt after := by
  have fits : guard (rt.atomArray.length * 3 < 2 ^ 31) = some () := if_pos notHuge
  simp only [grow, fits, Option.bind_eq_bind, Option.bind_some, Option.pure_def]
  by_cases tooMany : jsAtomMax < max 211 (rt.atomArray.length * 3 / 2)
  · exact ⟨none, by rw [if_pos tooMany], fun _ fits => Nat.not_lt_of_le fits.fits tooMany, by simp⟩
  rw [if_neg tooMany]
  cases isArray : malloc.array with
  | false => exact ⟨none, rfl, fun _ fits => by
      simpa [isArray] using fits.array, by simp⟩
  | true =>
      by_cases empty : rt.atomArray.length = 0
      · have nothing := List.length_eq_zero_iff.mp empty
        cases isNull : malloc.nullAtom with
        | none => exact ⟨none, by simp [empty], fun _ fits => fits.nullAtom nothing isNull, by simp⟩
        | some p =>
            obtain ⟨formedNull, places⟩ := formed.addNull nothing p
            obtain ⟨formedAfter, placesAfter⟩ :=
              formedNull.extend noFree (List.cons_ne_nil _ _) (by decide : 1 < 211) (by decide)
            refine ⟨some ((rt.withNull p).withPlaces 211), by simp [empty]; rfl, by simp,
              fun after isAfter => ?_⟩
            obtain rfl := Option.some_inj.mp isAfter
            have length := (rt.withNull p).length_withPlaces (by decide : 1 ≤ 211)
            exact ⟨formedAfter, by simp [nothing]; rfl,
              freeFrom_withPlaces _ _ (by decide : 1 ≤ 211), by simpa [nothing] using length,
              .inr ⟨nothing, p, isNull, placesAfter.trans places, rfl⟩⟩
      · obtain ⟨formedAfter, placesAfter⟩ := formed.extend noFree
          (mt List.length_eq_zero_iff.mpr empty)
          (by omega : rt.atomArray.length < max 211 (rt.atomArray.length * 3 / 2))
          (Nat.le_of_not_lt tooMany)
        refine ⟨some (rt.withPlaces _), by simp [empty]; rfl, by simp,
          fun after isAfter => ?_⟩
        obtain rfl := Option.some_inj.mp isAfter
        have larger : rt.atomArray.length ≤ max 211 (rt.atomArray.length * 3 / 2) := by omega
        exact ⟨formedAfter, (Nat.max_eq_right (Nat.one_le_iff_ne_zero.mpr empty)).symm,
          freeFrom_withPlaces _ _ larger, rt.length_withPlaces larger, .inl ⟨placesAfter, rfl⟩⟩

/-! ## Freeing structures -/

theorem Formed.exists_unlink (formed : rt.Formed) (reads : rt.read i = some (p, str)) :
    ∃ after, rt.unlink p str = some (i, after) ∧ Alike rt after ∧
      after.atomFreeIndex = rt.atomFreeIndex ∧ after.atomCount = rt.atomCount ∧
      after.content = rt.content ∧ after.atomHash.length = rt.atomHash.length ∧
      Table after.read next after.head (fun entry => rt.bucket entry.2.hash) fun other =>
        rt.Hashed other ∧ other ≠ i := by
  obtain ⟨isPlace, isStr⟩ := read_eq_some.mp reads
  obtain ⟨held, type, isHeld, isType, -, index, -⟩ := formed.placed isPlace
  obtain rfl := Option.some_inj.mp (isStr.symm.trans isHeld)
  have self : Alike rt rt := ⟨rfl, fun {j q other} readsOther =>
    ⟨other, (read_eq_some.mp readsOther).2, rfl, rfl, rfl, fun _ => rfl⟩⟩
  by_cases isSymbol : type = .symbol
  · refine ⟨rt, ?_, self, rfl, rfl, rfl, rfl, formed.table.congr_members fun other =>
      and_iff_left_of_imp ?_⟩
    · simp [unlink, isType, isSymbol, index isSymbol]
    · rintro ⟨q, other, type', readsOther, otherType, notSymbol⟩ rfl
      obtain ⟨rfl, rfl⟩ := Prod.mk.inj (Option.some_inj.mp (reads.symm.trans readsOther))
      exact notSymbol ((Option.some_inj.mp (otherType.symm.trans isType)).trans isSymbol)
  · have hashed : rt.Hashed i := ⟨p, str, type, reads, isType, isSymbol⟩
    obtain ⟨before, finds, others, unlinks⟩ := formed.exists_findStruct reads hashed
    have inside := bucket_lt formed.size str.hash
    cases before with
    | none =>
        refine ⟨{ rt with atomHash := rt.atomHash.set (rt.bucket str.hash) str.hashNext }, ?_, ?_,
          rfl, rfl, rfl, List.length_set, ?_⟩
        · simp [unlink, isType, isSymbol, finds]
        · exact ⟨rfl, self.structs⟩
        · refine unlinks _ _ (.first (fun other _ => rfl) ?_ fun other isOther => ?_)
          · simp [head, next, inside]
          · simp only [head]
            rw [List.getElem?_set_ne fun same => isOther same.symm]
    | some i0 =>
        obtain ⟨⟨p0, str0, type0, reads0, isType0, notSymbol0⟩, apart⟩ := others i0 rfl
        refine ⟨rt.write p0 (some { str0 with hashNext := str.hashNext }), ?_,
          ⟨rfl, fun {j q other} readsOther => ?_⟩, rfl, rfl,
          content_write_link (read_eq_some.mp reads0).2 _, rfl, ?_⟩
        · simp [unlink, isType, isSymbol, finds, reads0]
        · obtain ⟨-, isOther⟩ := read_eq_some.mp readsOther
          by_cases isP : q = p0
          · subst isP
            obtain rfl := Option.some_inj.mp (isOther.symm.trans (read_eq_some.mp reads0).2)
            exact ⟨_, Function.update_self _ _ _, rfl, rfl, rfl, fun isSymbol =>
              absurd (Option.some_inj.mp (isType0.symm.trans isSymbol)) notSymbol0⟩
          · exact ⟨other, by rw [strings_write, Function.update_of_ne isP, isOther], rfl, rfl, rfl,
              fun _ => rfl⟩
        · refine unlinks _ _ (.behind reads0 (read_eq_some.mpr ⟨(read_eq_some.mp reads0).1,
            Function.update_self _ _ _⟩) rfl rfl (fun other isOther _ => ?_) fun _ => rfl)
          exact read_write_of_ne (fun same =>
            isOther (formed.apart same (read_eq_some.mp reads0).1)) _

/-- The place of an atom is made free. -/
def withFree (rt : AtomTable) (i : Nat) (p : Address) : AtomTable :=
  { rt.write p none with
    atomArray := rt.atomArray.set i (.free rt.atomFreeIndex)
    atomFreeIndex := i
    atomCount := rt.atomCount - 1 }

section Free

variable (isPlace : rt.place i = some p)
include isPlace

theorem place_withFree : (rt.withFree i p).place = Function.update rt.place i none := by
  have inside := lt_of_place isPlace
  funext j
  by_cases same : j = i
  · subst same
    simp [place, withFree, inside, AtomSlot.pointer?]
  · rw [Function.update_of_ne same, place, place, withFree, List.getElem?_set_ne (Ne.symm same)]

theorem nextFree_withFree :
    (rt.withFree i p).nextFree = Function.update rt.nextFree i (some rt.atomFreeIndex) := by
  have inside := lt_of_place isPlace
  funext j
  by_cases same : j = i
  · subst same
    simp [nextFree, withFree, inside, AtomSlot.next?]
  · rw [Function.update_of_ne same, nextFree, nextFree, withFree,
      List.getElem?_set_ne (Ne.symm same)]

/-- What is left when the structure of an atom has been freed. -/
theorem Structured.withFree (structured : rt.Structured) (notNull : i ≠ 0) :
    (rt.withFree i p).Structured := by
  have places := place_withFree isPlace
  have others : ∀ {j q}, (rt.withFree i p).place j = some q →
      j ≠ i ∧ q ≠ p ∧ rt.place j = some q := by
    intro j q isOther
    rw [places] at isOther
    by_cases same : j = i
    · simp [same] at isOther
    · rw [Function.update_of_ne same] at isOther
      refine ⟨same, ?_, isOther⟩
      rintro rfl
      exact same (structured.apart isOther isPlace)
  have strings : ∀ {q}, q ≠ p → (rt.withFree i p).strings q = rt.strings q := fun isOther =>
    Function.update_of_ne isOther _ _
  have readsBack : ∀ {j q str}, (rt.withFree i p).read j = some (q, str) →
      rt.read j = some (q, str) := by
    intro j q str reads
    obtain ⟨isOther, isStr⟩ := read_eq_some.mp reads
    obtain ⟨-, notP, before⟩ := others isOther
    exact read_eq_some.mpr ⟨before, strings notP ▸ isStr⟩
  refine ⟨?_, ?_, ?_, ?_, ?_, ?_, ?_, List.length_set.trans_le structured.small⟩
  · intro j k q isJ isK
    exact structured.apart (others isJ).2.2 (others isK).2.2
  · intro _
    have notEmpty : rt.atomArray ≠ [] := by
      rintro empty
      have inside := lt_of_place isPlace
      simp [empty] at inside
    obtain ⟨q, str, reads, isSymbol⟩ := structured.null notEmpty
    obtain ⟨isFirst, isStr⟩ := read_eq_some.mp reads
    have isOther : q ≠ p := by
      rintro rfl
      exact notNull (structured.apart isPlace isFirst)
    refine ⟨q, str, read_eq_some.mpr ⟨?_, (strings isOther).trans isStr⟩, isSymbol⟩
    rw [places, Function.update_of_ne (Ne.symm notNull), isFirst]
  · intro j q isOther
    obtain ⟨-, notP, before⟩ := others isOther
    rw [strings notP]
    exact structured.placed before
  · intro q str isStr notPlaced
    by_cases same : q = p
    · subst same
      simp [AtomTable.withFree, strings_write] at isStr
    · rw [strings same] at isStr
      refine structured.plain isStr fun j isOther => notPlaced j ?_
      rw [places, Function.update_of_ne ?_, isOther]
      rintro rfl
      exact same (Option.some_inj.mp (isOther.symm.trans isPlace))
  · intro j k q q' str other type reads readsOther
    exact structured.unique (readsBack reads) (readsBack readsOther)
  · obtain ⟨free, chain, nodup, isFree⟩ := structured.free
    have frees := nextFree_withFree isPlace
    have fresh : i ∉ free := by
      intro member
      obtain ⟨next, isNext⟩ := (isFree i).mp member
      have := (nextFree_eq_some.mp isNext).symm.trans (place_eq_some.mp isPlace)
      simp at this
    refine ⟨i :: free, ?_, List.nodup_cons.mpr ⟨fresh, nodup⟩, fun j => ?_⟩
    · rw [show (rt.withFree i p).atomFreeIndex = i from rfl, link_of_ne_zero notNull, frees]
      refine .cons (Function.update_self _ _ _) (chain.congr fun j member => ?_)
      refine Function.update_of_ne ?_ _ _
      rintro rfl
      exact fresh member
    · rw [frees, List.mem_cons, isFree]
      by_cases same : j = i
      · simp [same]
      · simp [same]
  · have inside := lt_of_place isPlace
    have isAtom : rt.atomArray[i] = .atom p := by
      have := place_eq_some.mp isPlace
      rwa [List.getElem?_eq_getElem inside, Option.some_inj] at this
    have positive : 0 < rt.atomArray.countP AtomSlot.isAtom :=
      List.countP_pos_iff.mpr ⟨_, List.getElem_mem inside, by simp [isAtom, AtomSlot.isAtom]⟩
    change rt.atomCount - 1 =
      ((rt.atomArray.set i (.free rt.atomFreeIndex)).countP AtomSlot.isAtom : Nat)
    rw [structured.count, List.countP_set inside, isAtom]
    simp only [AtomSlot.isAtom, if_true, Bool.false_eq_true, if_false]
    omega

end Free

/-- The structure of an atom is freed, and its place is free again. -/
theorem Formed.exists_jsFreeAtomStruct (formed : rt.Formed) (isPlace : rt.place i = some p)
    (notNull : i ≠ 0) : ∃ after, rt.jsFreeAtomStruct p = some after ∧ after.Formed ∧
      after.place = Function.update rt.place i none ∧
      after.content = Function.update rt.content p none ∧ after.atomFreeIndex = i := by
  obtain ⟨str, type, isStr, -⟩ := formed.placed isPlace
  have reads := read_eq_some.mpr ⟨isPlace, isStr⟩
  obtain ⟨mid, unlinks, alike, freeIndex, count, content, size, table⟩ := formed.exists_unlink reads
  have structured : mid.Structured :=
    alike.structured formed.toStructured freeIndex count fun q other notPlaced isOther => by
      obtain ⟨before, isBefore, same⟩ := content_eq_some.mp
        ((congrFun content q).symm.trans (content_eq_some.mpr ⟨other, isOther, rfl⟩))
      obtain ⟨-, -, sameType⟩ := Prod.mk.inj same |>.imp_right Prod.mk.inj
      exact sameType ▸ formed.plain isBefore notPlaced
  have places := place_congr alike.array
  have isMid : mid.place i = some p := places ▸ isPlace
  have inside := lt_of_place isMid
  have freed := structured.withFree isMid notNull
  have positive : 1 ≤ mid.atomCount := by
    have counts : mid.atomCount - 1 = _ := freed.count
    omega
  have apart : ∀ j, j ≠ i → mid.place j ≠ some p := fun j isOther same =>
    isOther (structured.apart same isMid)
  have readsSame : ∀ j, j ≠ i → (mid.withFree i p).read j = mid.read j := by
    intro j isOther
    rw [read_eq, read_eq, place_withFree isMid, Function.update_of_ne isOther]
    cases isQ : mid.place j with
    | none => rfl
    | some q =>
        have notP : q ≠ p := by
          rintro rfl
          exact apart j isOther isQ
        simp [withFree, strings_write, notP]
  refine ⟨mid.withFree i p, ?_, ⟨freed, ?_, ?_⟩, ?_, ?_, rfl⟩
  · simp [jsFreeAtomStruct, isStr, unlinks, guard, inside, positive, withFree, write]
  · exact ⟨_, size.trans formed.size.choose_spec⟩
  · have hashed : ∀ j, (mid.withFree i p).Hashed j ↔ rt.Hashed j ∧ j ≠ i := by
      intro j
      by_cases same : j = i
      · subst same
        refine iff_of_false ?_ fun both => both.2 rfl
        rintro ⟨q, other, type, readsOther, -⟩
        simp [read_eq, place_withFree isMid] at readsOther
      · rw [← alike.hashed formed.toStructured]
        simp only [Hashed, readsSame j same, and_iff_left same]
    have same : ∀ index, (mid.withFree i p).head index = mid.head index := fun _ => rfl
    have moved : Table (mid.withFree i p).read next (mid.withFree i p).head
        (fun entry => rt.bucket entry.2.hash) (mid.withFree i p).Hashed :=
      (table.congr (fun j member => readsSame j member.2) same).congr_members hashed
    have sameSize : (mid.withFree i p).atomHash.length = rt.atomHash.length := size
    simpa only [bucket, sameSize] using moved
  · rw [place_withFree isMid, places]
  · rw [← content]
    exact content_write mid p none

/-! ## New structures -/

/-- The place that is free first. -/
theorem Formed.exists_free (formed : rt.Formed) (notFull : rt.atomFreeIndex ≠ 0) :
    ∃ nextFree, rt.atomArray[rt.atomFreeIndex]? = some (.free nextFree) := by
  obtain ⟨free, chain, -, isFree⟩ := formed.free
  have isHead := chain.eq_head?
  rw [link_of_ne_zero notFull] at isHead
  obtain ⟨next, isNext⟩ := (isFree rt.atomFreeIndex).mp (List.mem_of_mem_head? isHead.symm)
  exact ⟨next, nextFree_eq_some.mp isNext⟩

/-- The first free place is given to a structure. -/
def withAtom (rt : AtomTable) (p : Address) (nextFree : Nat) (str : JSAtomStruct) : AtomTable :=
  { rt.write p (some str) with
    atomFreeIndex := nextFree
    atomArray := rt.atomArray.set rt.atomFreeIndex (.atom p)
    atomCount := rt.atomCount + 1 }

section New

variable {nextFree : Nat} (isFree : rt.atomArray[rt.atomFreeIndex]? = some (.free nextFree))
include isFree

theorem place_free : rt.place rt.atomFreeIndex = none := by
  rw [place, isFree]
  rfl

theorem place_withAtom (p : Address) (str : JSAtomStruct) :
    (rt.withAtom p nextFree str).place = Function.update rt.place rt.atomFreeIndex (some p) := by
  have inside := (List.getElem?_eq_some_iff.mp isFree).1
  funext j
  by_cases same : j = rt.atomFreeIndex
  · subst same
    simp [place, withAtom, inside, AtomSlot.pointer?]
  · rw [Function.update_of_ne same, place, place, withAtom, List.getElem?_set_ne (Ne.symm same)]

theorem nextFree_withAtom (p : Address) (str : JSAtomStruct) :
    (rt.withAtom p nextFree str).nextFree = Function.update rt.nextFree rt.atomFreeIndex none := by
  have inside := (List.getElem?_eq_some_iff.mp isFree).1
  funext j
  by_cases same : j = rt.atomFreeIndex
  · subst same
    simp [AtomTable.nextFree, withAtom, inside, AtomSlot.next?]
  · rw [Function.update_of_ne same, AtomTable.nextFree, AtomTable.nextFree, withAtom,
      List.getElem?_set_ne (Ne.symm same)]

theorem read_withAtom_of_ne (notPlaced : ∀ i, rt.place i ≠ some p) (str : JSAtomStruct)
    (isOther : j ≠ rt.atomFreeIndex) : (rt.withAtom p nextFree str).read j = rt.read j := by
  rw [read_eq, read_eq, place_withAtom isFree, Function.update_of_ne isOther]
  cases isQ : rt.place j with
  | none => rfl
  | some q =>
      have notP : q ≠ p := by
        rintro rfl
        exact notPlaced j isQ
      simp [AtomTable.withAtom, strings_write, notP]

theorem read_withAtom (p : Address) (str : JSAtomStruct) :
    (rt.withAtom p nextFree str).read rt.atomFreeIndex = some (p, str) :=
  read_eq_some.mpr ⟨by rw [place_withAtom isFree, Function.update_self], Function.update_self _ _ _⟩

/-- A string that no atom has becomes the structure of a new atom. -/
theorem Structured.withAtom {type : AtomType} (structured : rt.Structured)
    (notPlaced : ∀ i, rt.place i ≠ some p) (notFull : rt.atomFreeIndex ≠ 0)
    (isType : str.atomType = some type) (notPrivate : type ≠ .privateSymbol)
    (index : type = .symbol → str.hashNext = rt.atomFreeIndex)
    (hash : type ≠ .symbol → str.hash = atomHashOf str.string type)
    (unique : type ≠ .symbol → ∀ j q other, rt.read j = some (q, other) →
      other.atomType = some type → other.string.units ≠ str.string.units) :
    (rt.withAtom p nextFree str).Structured := by
  have places := place_withAtom isFree p str
  have inside := (List.getElem?_eq_some_iff.mp isFree).1
  have noPlace := place_free isFree
  have isNew := read_withAtom isFree p str
  have isOld : ∀ {j}, j ≠ rt.atomFreeIndex → (rt.withAtom p nextFree str).read j = rt.read j :=
    read_withAtom_of_ne isFree notPlaced str
  have others : ∀ {j q}, (rt.withAtom p nextFree str).place j = some q →
      j = rt.atomFreeIndex ∧ q = p ∨ j ≠ rt.atomFreeIndex ∧ rt.place j = some q := by
    intro j q isPlace
    rw [places] at isPlace
    by_cases same : j = rt.atomFreeIndex
    · subst same
      rw [Function.update_self, Option.some_inj] at isPlace
      exact .inl ⟨rfl, isPlace.symm⟩
    · rw [Function.update_of_ne same] at isPlace
      exact .inr ⟨same, isPlace⟩
  refine ⟨?_, ?_, ?_, ?_, ?_, ?_, ?_, List.length_set.trans_le structured.small⟩
  · intro j k q isJ isK
    rcases others isJ with ⟨rfl, rfl⟩ | ⟨-, oldJ⟩ <;> rcases others isK with ⟨rfl, same⟩ | ⟨-, oldK⟩
    · rfl
    · exact absurd oldK (notPlaced k)
    · exact absurd (same ▸ oldJ) (notPlaced j)
    · exact structured.apart oldJ oldK
  · intro _
    have notEmpty : rt.atomArray ≠ [] := by
      rintro empty
      simp [empty] at inside
    rw [isOld (Ne.symm notFull)]
    exact structured.null notEmpty
  · intro j q isPlace
    rcases others isPlace with ⟨rfl, rfl⟩ | ⟨isOther, old⟩
    · exact ⟨str, type, Function.update_self _ _ _, isType, notPrivate, index, hash⟩
    · obtain ⟨other, type', isOther', rest⟩ := structured.placed old
      have reads := (isOld isOther).trans (read_eq_some.mpr ⟨old, isOther'⟩)
      exact ⟨other, type', (read_eq_some.mp reads).2, rest⟩
  · intro q other isOther notPlacedNow
    have notP : q ≠ p := by
      rintro rfl
      exact notPlacedNow rt.atomFreeIndex (by rw [places, Function.update_self])
    have isStr : rt.strings q = some other := by
      rw [← isOther]
      exact (Function.update_of_ne notP _ _).symm
    refine structured.plain isStr fun j isPlace => notPlacedNow j ?_
    rw [places, Function.update_of_ne ?_, isPlace]
    rintro rfl
    simp [noPlace] at isPlace
  · intro j k q q' first second type' readsJ readsK isJ isK notSymbol sameUnits
    by_cases newJ : j = rt.atomFreeIndex <;> by_cases newK : k = rt.atomFreeIndex
    · rw [newJ, newK]
    · subst newJ
      rw [isOld newK] at readsK
      obtain ⟨rfl, rfl⟩ := Prod.mk.inj (Option.some_inj.mp (isNew.symm.trans readsJ))
      obtain rfl := Option.some_inj.mp (isType.symm.trans isJ)
      exact absurd sameUnits.symm (unique notSymbol k q' second readsK isK)
    · subst newK
      rw [isOld newJ] at readsJ
      obtain ⟨rfl, rfl⟩ := Prod.mk.inj (Option.some_inj.mp (isNew.symm.trans readsK))
      obtain rfl := Option.some_inj.mp (isType.symm.trans isK)
      exact absurd sameUnits (unique notSymbol j q first readsJ isJ)
    · rw [isOld newJ] at readsJ
      rw [isOld newK] at readsK
      exact structured.unique readsJ readsK isJ isK notSymbol sameUnits
  · obtain ⟨free, chain, nodup, isFreePlace⟩ := structured.free
    have isHead := chain.eq_head?
    rw [link_of_ne_zero notFull] at isHead
    cases free with
    | nil => simp at isHead
    | cons first free =>
        obtain rfl := Option.some_inj.mp isHead
        obtain ⟨notIn, nodupRest⟩ := List.nodup_cons.mp nodup
        obtain ⟨next, -, isNext, tail⟩ := chain.exists_tail
        obtain rfl : next = nextFree := by
          simpa [isFree] using (nextFree_eq_some.mp isNext).symm
        have frees := nextFree_withAtom isFree p str
        refine ⟨free, ?_, nodupRest, fun j => ?_⟩
        · rw [frees]
          refine tail.congr fun j member => Function.update_of_ne ?_ _ _
          rintro rfl
          exact notIn member
        · rw [frees]
          by_cases same : j = rt.atomFreeIndex
          · subst same
            simp [notIn]
          · rw [Function.update_of_ne same, ← isFreePlace, List.mem_cons, or_iff_right same]
  · have isSlot : rt.atomArray[rt.atomFreeIndex] = .free nextFree := by
      rwa [List.getElem?_eq_getElem inside, Option.some_inj] at isFree
    change rt.atomCount + 1 =
      ((rt.atomArray.set rt.atomFreeIndex (.atom p)).countP AtomSlot.isAtom : Nat)
    rw [structured.count, List.countP_set inside, isSlot]
    simp only [AtomSlot.isAtom, if_true, Bool.false_eq_true, if_false]
    omega

theorem hashed_withAtom (notPlaced : ∀ i, rt.place i ≠ some p) {type : AtomType}
    (isType : str.atomType = some type) (i : Nat) : (rt.withAtom p nextFree str).Hashed i ↔
      (i = rt.atomFreeIndex ∧ type ≠ .symbol) ∨ rt.Hashed i := by
  by_cases isNew : i = rt.atomFreeIndex
  · subst isNew
    have noRead : rt.read rt.atomFreeIndex = none := by rw [read_eq, place_free isFree]; rfl
    simp [Hashed, read_withAtom isFree, isType, noRead]
  · simp [Hashed, read_withAtom_of_ne isFree notPlaced str isNew, isNew]

end New

theorem Formed.exists_enter {type : AtomType} {h : Nat} (formed : rt.Formed)
    (isStr : rt.strings p = some str) (notPlaced : ∀ i, rt.place i ≠ some p)
    (notFull : rt.atomFreeIndex ≠ 0) (notPrivate : type ≠ .privateSymbol)
    (hash : type ≠ .symbol → h = atomHashOf str.string type)
    (unique : type ≠ .symbol → ∀ j q other, rt.read j = some (q, other) →
      other.atomType = some type → other.string.units ≠ str.string.units) (malloc : Mallocs) :
    ∃ after, rt.enter p h type malloc = some (rt.atomFreeIndex, after) ∧ after.Formed ∧
      after.place = Function.update rt.place rt.atomFreeIndex (some p) ∧
      after.content = Function.update rt.content p
        (some (str.refCount, str.string, some type)) ∧
      after.atomArray = rt.atomArray.set rt.atomFreeIndex (.atom p) ∧
      rt.atomArray[rt.atomFreeIndex]? = some (.free after.atomFreeIndex) := by
  obtain ⟨nextFree, isFree⟩ := formed.exists_free notFull
  have content : ∀ hashNext, (rt.withAtom p nextFree ⟨str.refCount, str.string, h, some type,
      hashNext⟩).content = Function.update rt.content p
        (some (str.refCount, str.string, some type)) := fun hashNext =>
    content_write rt p (some ⟨str.refCount, str.string, h, some type, hashNext⟩)
  have noRead : ¬rt.Hashed rt.atomFreeIndex := by
    rintro ⟨q, other, type', reads, -⟩
    simp [read_eq, place_free isFree] at reads
  by_cases isSymbol : type = .symbol
  · have structured : (rt.withAtom p nextFree
        ⟨str.refCount, str.string, h, some type, rt.atomFreeIndex⟩).Structured :=
      formed.toStructured.withAtom isFree notPlaced notFull rfl notPrivate (fun _ => rfl) hash
        unique
    refine ⟨rt.withAtom p nextFree ⟨str.refCount, str.string, h, some type, rt.atomFreeIndex⟩, ?_,
      ⟨structured, formed.size, ?_⟩, place_withAtom isFree p _, content rt.atomFreeIndex, rfl,
      isFree⟩
    · simp [enter, isFree, isStr, isSymbol, withAtom, write]
    · refine Table.congr_members ?_ fun i => (hashed_withAtom isFree notPlaced rfl i).trans
        (or_iff_right fun new => new.2 isSymbol)
      refine formed.table.congr (fun i hashed => read_withAtom_of_ne isFree notPlaced _ ?_)
        fun _ => rfl
      rintro rfl
      exact noRead hashed
  · have inside := bucket_lt formed.size h
    have structured : (rt.withAtom p nextFree
        ⟨str.refCount, str.string, h, some type, rt.atomHash[rt.bucket h]⟩).Structured :=
      formed.toStructured.withAtom isFree notPlaced notFull rfl notPrivate
        (fun isSymbol' => absurd isSymbol' isSymbol) hash unique
    let mid : AtomTable :=
      { rt.withAtom p nextFree
          ⟨str.refCount, str.string, h, some type, rt.atomHash[rt.bucket h]⟩ with
        atomHash := rt.atomHash.set (rt.bucket h) rt.atomFreeIndex }
    have formedMid : mid.Formed := by
      refine ⟨⟨structured.apart, structured.null, structured.placed, structured.plain,
          structured.unique, structured.free, structured.count, structured.small⟩,
        by simpa [mid] using formed.size, ?_⟩
      refine Table.congr_members ?_ fun i => (hashed_withAtom isFree notPlaced rfl i).trans
        (or_congr_left (and_iff_left isSymbol))
      have bucketMid : ∀ hash, mid.bucket hash = rt.bucket hash := by simp [bucket, mid]
      simp only [bucketMid]
      refine formed.table.insert noRead (read_withAtom isFree p _) ?_
        (fun i isOther => read_withAtom_of_ne isFree notPlaced _ isOther) ?_ fun index isOther => ?_
      · simp [next, head, inside]
      · simp [head, mid, inside, link_of_ne_zero notFull]
      · simp only [head, mid]
        rw [List.getElem?_set_ne (Ne.symm isOther)]
    obtain ⟨bits, size⟩ := formed.size
    have double : mid.atomHash.length * 2 = 2 ^ (bits + 1) := by
      simp [mid, size, Nat.pow_succ]
    obtain ⟨resized, after, resizes, formedAfter, array, contentAfter, freeIndex⟩ :=
      formedMid.exists_jsResizeAtomHash (bits + 1) malloc.hash
    rw [← double] at resizes
    have places : mid.place = Function.update rt.place rt.atomFreeIndex (some p) :=
      place_withAtom isFree p
        ⟨str.refCount, str.string, h, some type, rt.atomHash[rt.bucket h]⟩
    by_cases isLarge : mid.atomCountResize ≤ mid.atomCount
    · refine ⟨after, ?_, formedAfter, (place_congr array).trans places,
        contentAfter.trans (content _), array, freeIndex ▸ isFree⟩
      simp only [mid, withAtom, write, List.length_set] at isLarge resizes
      simp [enter, isFree, isStr, isSymbol, inside, write, isLarge, resizes]
    · refine ⟨mid, ?_, formedMid, places, content _, rfl, isFree⟩
      simp only [mid, withAtom, write] at isLarge
      simp [enter, isFree, isStr, isSymbol, inside, write, isLarge, mid, withAtom]

end AtomTable

end Jib.QuickJS
