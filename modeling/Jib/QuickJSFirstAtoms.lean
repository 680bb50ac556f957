import Jib.QuickJSAtomNames

/-!
# The first atoms

The engine makes the atoms of its own names before all others, in the order of
their constants: an atom that is made takes the next free place, and the free
places of a new array are in order.
-/

namespace Jib.QuickJS

namespace AtomTable

variable {rt mid after : AtomTable} {i v : Nat} {p : Address} {owns : AtomRef → Nat}
  {type : AtomType} {units : List UInt16} {malloc : Mallocs} {mallocs : Nat → Mallocs}

/-! ## Places in order -/

/-- The places from `i` on are free and taken in order. -/
structure InOrder (i : Nat) (rt : AtomTable) : Prop where
  positive : 1 ≤ i
  freeFrom : rt.FreeFrom i
  freeIndex : rt.atomFreeIndex = if i < rt.atomArray.length then i else 0
  inside : i ≤ max 1 rt.atomArray.length
  small : rt.atomArray.length ≤ 400

theorem InOrder.congr (order : InOrder i rt) (array : after.atomArray = rt.atomArray)
    (freeIndex : after.atomFreeIndex = rt.atomFreeIndex) : InOrder i after where
  positive := order.positive
  freeFrom j atLeast inside := by
    rw [nextFree_congr array]
    rw [array] at inside ⊢
    exact order.freeFrom j atLeast inside
  freeIndex := by rw [freeIndex, array, order.freeIndex]
  inside := by rw [array]; exact order.inside
  small := by rw [array]; exact order.small

/-- There is room at the next place. -/
theorem InOrder.room (order : InOrder i rt) (few : i < jsAtomEnd) (notFull : mid.atomFreeIndex ≠ 0)
    (isMid : mid = rt ∨ rt.atomFreeIndex = 0 ∧ Grown malloc rt mid) :
    InOrder i mid ∧ mid.atomFreeIndex = i := by
  have positive := order.positive
  have inside := order.inside
  have freeIndex := order.freeIndex
  have isEnd : jsAtomEnd = 216 := jsAtomEnd_eq
  rcases isMid with rfl | ⟨isFull, grown⟩
  · refine ⟨order, ?_⟩
    split at freeIndex
    · exact freeIndex
    · exact absurd freeIndex notFull
  · have isLast : i = max 1 rt.atomArray.length := by
      split at freeIndex <;> omega
    have isIndex : mid.atomFreeIndex = i := grown.freeIndex.trans isLast.symm
    have length := grown.length
    refine ⟨⟨positive, isIndex ▸ grown.freeFrom, ?_, by omega, by omega⟩, isIndex⟩
    rw [if_pos (by omega), isIndex]

theorem InOrder.enter (order : InOrder i rt) (isIndex : rt.atomFreeIndex = i)
    (array : after.atomArray = rt.atomArray.set i (.atom p))
    (isNext : rt.nextFree i = some after.atomFreeIndex) : InOrder (i + 1) after := by
  have positive := order.positive
  have freeIndex := order.freeIndex
  have inside : i < rt.atomArray.length := by
    by_contra outside
    rw [if_neg outside] at freeIndex
    omega
  have length : after.atomArray.length = rt.atomArray.length := by rw [array, List.length_set]
  refine ⟨by omega, fun j atLeast insideJ => ?_, ?_, by omega, length ▸ order.small⟩
  · rw [length] at insideJ ⊢
    rw [nextFree, array, List.getElem?_set_ne (by omega), ← nextFree]
    exact order.freeFrom j (by omega) insideJ
  · rw [order.freeFrom i le_rfl inside, Option.some_inj] at isNext
    rw [length, ← isNext]
    split <;> split <;> omega

/-- New places change no structures. -/
theorem strings_room (isMid : mid = rt ∨ rt.atomFreeIndex = 0 ∧ Grown malloc rt mid)
    (notNull : p ∉ malloc.nullAtom) : mid.strings p = rt.strings p := by
  rcases isMid with rfl | ⟨-, grown⟩
  · rfl
  · rcases grown.effect with ⟨-, strings⟩ | ⟨-, q, isNull, -, strings⟩
    · rw [strings]
    · have isOther : p ≠ q := by
        rintro rfl
        exact notNull isNull
      rw [strings, Function.update_of_ne isOther]

theorem content_room (isMid : mid = rt ∨ rt.atomFreeIndex = 0 ∧ Grown malloc rt mid)
    (notNull : p ∉ malloc.nullAtom) : mid.content p = rt.content p := by
  rw [content, content, strings_room isMid notNull]

/-! ## Hashes -/

/-- The hashes that structures have. -/
def hashes (rt : AtomTable) (p : Address) : Option Nat :=
  (rt.strings p).map (·.hash)

theorem hashes_write (rt : AtomTable) (p : Address) (str : JSAtomStruct) :
    (rt.write p (some str)).hashes = Function.update rt.hashes p (some str.hash) := by
  funext q
  by_cases same : q = p
  · subst same
    simp [hashes, AtomTable.write]
  · simp [hashes, AtomTable.write, Function.update_of_ne same]

theorem hashes_rewrite {str changed : JSAtomStruct} (isStr : rt.strings p = some str)
    (sameHash : changed.hash = str.hash) : (rt.write p (some changed)).hashes = rt.hashes := by
  rw [hashes_write, sameHash]
  exact Function.update_eq_self_iff.mpr (by simp [hashes, isStr])

/-- Resizing changes the links of structures and otherwise only the hash table. -/
theorem jsResizeAtomHash_preserves {P : AtomTable → Prop}
    (links : ∀ {rt : AtomTable} {p str} (hashNext : JSAtom), P rt → rt.strings p = some str →
      P (rt.write p (some { str with hashNext })))
    (congr : ∀ {rt after : AtomTable}, P rt → after.strings = rt.strings →
      after.atomArray = rt.atomArray → P after)
    {newSize : Nat} {enough resized : Bool} (before : P rt)
    (runs : rt.jsResizeAtomHash newSize enough = some (resized, after)) : P after := by
  obtain ⟨_, -, runs⟩ := Option.bind_eq_some_iff.mp runs
  cases enough with
  | false =>
      obtain ⟨-, rfl⟩ := Prod.mk.inj (Option.some_inj.mp runs)
      exact before
  | true =>
      obtain ⟨⟨moved, newHash⟩, moves, isAfter⟩ := Option.bind_eq_some_iff.mp runs
      obtain ⟨-, rfl⟩ := Prod.mk.inj (Option.some_inj.mp isAfter)
      have atEnd : P (moved, newHash).1 := by
        refine HashChains.rehash_preserves (fun state => P state.1) ?_ before moves
        rintro node ⟨rt, newHash⟩ next ⟨after, newHash'⟩ holds relinks
        obtain ⟨⟨p, str⟩, reads, relinks⟩ := Option.bind_eq_some_iff.mp relinks
        obtain ⟨hashNext, -, isAfter⟩ := Option.bind_eq_some_iff.mp relinks
        obtain ⟨-, isAfter⟩ := Prod.mk.inj (Option.some_inj.mp isAfter)
        obtain ⟨rfl, -⟩ := Prod.mk.inj isAfter
        exact links hashNext holds (read_eq_some.mp reads).2
      exact congr atEnd rfl rfl

/-- A structure is linked anew with the hash that it has. -/
theorem hashes_jsResizeAtomHash {newSize : Nat} {enough resized : Bool}
    (runs : rt.jsResizeAtomHash newSize enough = some (resized, after)) :
    after.hashes = rt.hashes := by
  refine jsResizeAtomHash_preserves (P := fun table => table.hashes = rt.hashes) ?_ ?_ rfl runs
  · intro table p str hashNext same isStr
    have kept : (table.write p (some { str with hashNext })).hashes = table.hashes :=
      hashes_rewrite isStr rfl
    exact kept.trans same
  · intro table after same strings _
    have kept : after.hashes = table.hashes := funext fun q => by rw [hashes, hashes, strings]
    exact kept.trans same

theorem hashes_enter {h : Nat} (runs : rt.enter p h type malloc = some (v, after)) :
    after.hashes = Function.update rt.hashes p (some h) := by
  obtain ⟨slot, -, runs⟩ := Option.bind_eq_some_iff.mp runs
  cases slot with
  | atom q => cases runs
  | free next =>
      obtain ⟨str, -, runs⟩ := Option.bind_eq_some_iff.mp runs
      simp only at runs
      split at runs
      · obtain ⟨-, rfl⟩ := Prod.mk.inj (Option.some_inj.mp runs)
        exact hashes_write ..
      · obtain ⟨hashNext, -, runs⟩ := Option.bind_eq_some_iff.mp runs
        split at runs
        · obtain ⟨⟨resized, last⟩, resizes, isAfter⟩ := Option.bind_eq_some_iff.mp runs
          obtain ⟨-, rfl⟩ := Prod.mk.inj (Option.some_inj.mp isAfter)
          exact (hashes_jsResizeAtomHash resizes).trans (hashes_write ..)
        · obtain ⟨-, rfl⟩ := Prod.mk.inj (Option.some_inj.mp runs)
          exact hashes_write ..

/-- The kind of an atom is that of its type and its hash. -/
theorem jsAtomGetKind_congr {str changed : JSAtomStruct} {q : Address}
    (reads : rt.read i = some (p, str)) (readsAfter : after.read i = some (q, changed))
    (sameType : changed.atomType = str.atomType) (sameHash : changed.hash = str.hash) :
    after.jsAtomGetKind i = rt.jsAtomGetKind i := by
  simp only [jsAtomGetKind, reads, readsAfter, Option.bind_eq_bind, Option.bind_some, sameType,
    sameHash]

/-- An atom that is kept with its hash keeps its kind. -/
theorem Keeps.jsAtomGetKind {owns : AtomRef → Nat} {q : Address} {str : JSAtomStruct}
    (keeps : Keeps owns rt after) (has : 0 < counted owns i) (reads : rt.read i = some (q, str))
    (isAtom : str.atomType.isSome = true) (sameHash : after.hashes q = rt.hashes q) :
    after.jsAtomGetKind i = rt.jsAtomGetKind i := by
  obtain ⟨isPlace, isStr⟩ := read_eq_some.mp reads
  obtain ⟨count, type, isThere, sameType⟩ :=
    keeps.content (content_eq_some.mpr ⟨str, isStr, rfl⟩) (.inr ⟨i, isPlace, has⟩)
  obtain ⟨changed, isChanged, isHeld⟩ := content_eq_some.mp isThere
  refine jsAtomGetKind_congr reads
    (read_eq_some.mpr ⟨keeps.place isPlace has, isChanged⟩) ?_ ?_
  · exact (Prod.mk.inj (Prod.mk.inj isHeld).2).2.symm ▸ sameType isAtom
  · simpa [AtomTable.hashes, isChanged, isStr] using sameHash

/-- An atom that is made of a string takes the next place. -/
theorem InOrder.exists_makeAtom {h : Nat} {count : Int} {string : JSString}
    (order : InOrder i rt) (few : i < jsAtomEnd)
    (sound : Sound (fun ref => [AtomRef.value p].count ref) rt)
    (isContent : rt.content p = some (count, string, none)) (fresh : Fresh malloc rt)
    (notPrivate : type ≠ .privateSymbol)
    (hash : type ≠ .symbol → h = atomHashOf string type)
    (unique : type ≠ .symbol → ∀ i, rt.text i ≠ some (type, string.units)) :
    ∃ v after, rt.makeAtom (some p) h type malloc = some (v, after) ∧
      ((v = jsAtomNull ∧ ¬Suffices malloc rt) ∨
        v = i ∧ Made (fun _ => 0) rt i type string.units after ∧ InOrder (i + 1) after ∧
          (∀ q, q ≠ p → after.content q ≠ none → rt.content q ≠ none ∨ q ∈ malloc.nullAtom) ∧
          after.place i = some p ∧ after.hashes p = some h ∧
          ∀ q, q ≠ p → q ∉ malloc.nullAtom → after.hashes q = rt.hashes q) := by
  have small := order.small
  obtain ⟨grown, grows, noRoom, isGrown⟩ := sound.exists_room malloc
    (by omega) fresh
  cases grown with
  | none =>
      obtain ⟨after, fails, -⟩ := sound.exists_fail (show ∀ ref,
          [AtomRef.value p].count ref = 0 + (valueRefs (some p)).count ref by simp [valueRefs])
      exact ⟨jsAtomNull, after, by simp [makeAtom, grows, fails], .inl ⟨rfl, noRoom rfl⟩⟩
  | some mid =>
      obtain ⟨raised, notFull, -, isMid⟩ := isGrown mid rfl
      obtain ⟨orderMid, isIndex⟩ := order.room few notFull isMid
      have notNull : p ∉ malloc.nullAtom := fun isNull => by
        rw [content_eq_none.mpr (fresh.nullAtom p isNull)] at isContent
        cases isContent
      have isThere := (content_room isMid notNull).trans isContent
      obtain ⟨str, isStr, isHeld⟩ := content_eq_some.mp isThere
      obtain ⟨-, rfl, isPlain⟩ := Prod.mk.inj isHeld |>.imp_right Prod.mk.inj
      have readied : Readied (fun _ => 0) rt p str.string.units mid :=
        ⟨by simpa using raised.sound, raised.keeps.mono fun _ => Nat.zero_le _, raised.noNew,
          fun _ => notFull, _, _, isThere, rfl⟩
      obtain ⟨after, enters, made, array, isNext, others⟩ := readied.exists_enter notFull notPrivate
        (fun notSymbol => ⟨str.string, rfl, hash notSymbol⟩) unique malloc
      rw [isIndex] at enters made array isNext
      have inside := (List.getElem?_eq_some_iff.mp (nextFree_eq_some.mp isNext)).1
      have hashes := hashes_enter enters
      refine ⟨i, after, by simp [makeAtom, grows, structFor, isStr, isPlain, enters], .inr ⟨rfl,
        made, orderMid.enter isIndex array isNext, fun q isOther isUsed => ?_,
        place_eq_some.mpr (by rw [array, List.getElem?_set_self inside]),
        by rw [hashes, Function.update_self], fun q isOther isNull => ?_⟩⟩
      · rw [others q isOther] at isUsed
        by_cases isNull : q ∈ malloc.nullAtom
        · exact .inr isNull
        · exact .inl (content_room isMid isNull ▸ isUsed)
      · rw [hashes, Function.update_of_ne isOther, AtomTable.hashes, AtomTable.hashes,
          strings_room isMid isNull]

/-! ## Names of the engine -/

/-- The type and the chars of the atom with a given constant. -/
def initText (i : Nat) : Option (AtomType × List UInt16) :=
  jsAtomInit[i - 1]?.map fun name => (storedType (initType i), (initString name).units)

/-- The kind of an atom that is made with a type. -/
def kindOf : AtomType → AtomKind
  | .string => .string
  | .globalSymbol | .symbol => .symbol
  | .privateSymbol => .privateSymbol

/-- The hash that `__JS_NewAtom` gives the structure of a symbol. -/
def symbolHash : AtomType → Nat
  | .privateSymbol => jsAtomHashPrivate
  | _ => jsAtomHashSymbol

theorem jsAtomGetKind_eq {str : JSAtomStruct} (reads : rt.read i = some (p, str))
    (notTagged : atomIsTaggedInt i = false) (isType : str.atomType = some (storedType type))
    (isHash : storedType type = .symbol → str.hash = symbolHash type) :
    rt.jsAtomGetKind i = some (kindOf type) := by
  cases type <;>
    simp_all [jsAtomGetKind, storedType, kindOf, symbolHash, jsAtomHashSymbol, jsAtomHashPrivate]

def unitsCode (units : List UInt16) : Nat :=
  units.foldl (fun n c => n * 2 ^ 16 + c.toNat) 0

theorem nodup_unitsCode :
    ((jsAtomInit.take 201).map fun name => unitsCode (initString name).units).Nodup := by
  decide +kernel

theorem isNumString_initString : ∀ name ∈ jsAtomInit, isNumString (initString name) = none := by
  decide +kernel

theorem initType_of_hashed (notSymbol : storedType (initType i) ≠ .symbol) :
    initType i = .string ∧ i ≤ 201 := by
  unfold initType at notSymbol ⊢
  split at notSymbol
  · exact absurd rfl notSymbol
  · next notBrand =>
      split at notSymbol
      · exact absurd rfl notSymbol
      · next notMore =>
          have isOther : i ≠ 202 := notBrand
          have below : ¬203 ≤ i := notMore
          exact ⟨by rw [if_neg notBrand, if_neg notMore], by omega⟩

/-- No two names of string atoms are the same. -/
theorem initText_unique {j : Nat} (positive : 1 ≤ i) (positiveJ : 1 ≤ j)
    (notSymbol : type ≠ .symbol) (isText : initText i = some (type, units))
    (isOther : initText j = some (type, units)) : i = j := by
  simp only [initText, Option.map_eq_some_iff, Prod.mk.injEq] at isText isOther
  obtain ⟨name, isName, isType, isUnits⟩ := isText
  obtain ⟨other, isName', isType', sameUnits⟩ := isOther
  obtain ⟨-, small⟩ := initType_of_hashed (isType ▸ notSymbol)
  obtain ⟨-, smallJ⟩ := initType_of_hashed (isType' ▸ notSymbol)
  have code : ∀ {k : Nat} {name : String}, k ≤ 200 → jsAtomInit[k]? = some name →
      ((jsAtomInit.take 201).map fun name => unitsCode (initString name).units)[k]? =
        some (unitsCode (initString name).units) := by
    intro k name isSmall isThere
    rw [List.getElem?_map, List.getElem?_take_of_lt (by omega), isThere, Option.map_some]
  have first := code (by omega) isName
  have second := code (by omega) isName'
  rw [isUnits] at first
  rw [sameUnits, ← first] at second
  have inside := (List.getElem?_eq_some_iff.mp first).1
  have same := (List.getElem?_inj inside nodup_unitsCode).mp second.symm
  omega

/-! ## The loop of the first atoms -/

/-- The memory that an iteration is given. -/
def given (malloc : Mallocs) : List Address :=
  malloc.nullAtom.toList ++ malloc.atom.toList ++ malloc.string.toList

/-- Memory that is given twice is not given. -/
structure Apart (mallocs : Nat → Mallocs) : Prop where
  once : ∀ i, (given (mallocs i)).Nodup
  apart : ∀ {i j p}, p ∈ given (mallocs i) → p ∈ given (mallocs j) → i = j

/-- The atoms before the `i`-th are made. -/
structure Starting (mallocs : Nat → Mallocs) (i : Nat) (rt : AtomTable) : Prop
    extends Sound (fun _ => 0) rt where
  order : InOrder i rt
  texts : ∀ j, 1 ≤ j → j < i → rt.text j = initText j
  kinds : ∀ j, 1 ≤ j → j < i → rt.jsAtomGetKind j = some (kindOf (initType j))
  memory : ∀ p, rt.content p ≠ none → ∃ j < i, p ∈ given (mallocs j)

theorem Starting.available (starting : Starting mallocs i rt) (apart : Apart mallocs) :
    Available (mallocs i) rt := by
  have isFree : ∀ p ∈ given (mallocs i), rt.strings p = none := by
    intro p member
    by_contra isUsed
    obtain ⟨j, before, isGiven⟩ := starting.memory p (mt content_eq_none.mp isUsed)
    exact absurd (apart.apart member isGiven) (Nat.ne_of_gt before)
  have once := apart.once i
  simp only [given, List.append_assoc, List.nodup_append, List.mem_append,
    Option.mem_toList] at once
  refine ⟨⟨fun p member => isFree p ?_, fun p member => isFree p ?_, fun p isNull isAtom =>
    once.2.2 p isNull p (.inl isAtom) rfl⟩, fun p member => isFree p ?_, fun p isString =>
      ⟨fun isNull => once.2.2 p isNull p (.inr isString) rfl, fun isAtom =>
        once.2.1.2.2 p isAtom p isString rfl⟩⟩
  all_goals simp [given, Option.mem_toList, Option.mem_def.mp member]

theorem exists_initText (positive : 1 ≤ i) (few : i < jsAtomEnd) :
    ∃ name, jsAtomInit[i - 1]? = some name ∧
      initText i = some (storedType (initType i), (initString name).units) := by
  have inside : i - 1 < jsAtomInit.length := by
    rw [jsAtomEnd] at few
    omega
  have isName := List.getElem?_eq_getElem inside
  exact ⟨_, isName, by rw [initText, isName, Option.map_some]⟩

theorem Starting.lt_of_text {j : Nat} (starting : Starting mallocs i rt)
    (isText : rt.text j = some (type, units)) : j < i := by
  obtain ⟨p, _, _, isPlace, -⟩ := text_eq_some.mp isText
  by_contra notBefore
  have isFree := starting.order.freeFrom j (Nat.le_of_not_lt notBefore) (lt_of_place isPlace)
  rw [nextFree_eq_some, place_eq_some.mp isPlace] at isFree
  cases isFree

/-- A string that is no atom, with chars that no atom has, becomes a new one. -/
theorem newAtom_eq_makeAtom {string : JSString} {count : Int} (malloc : Mallocs)
    (formed : rt.Formed) (isContent : rt.content p = some (count, string, none))
    (unique : storedType type ≠ .symbol → ∀ j, rt.text j ≠ some (storedType type, string.units)) :
    ∃ h, (storedType type ≠ .symbol → h = atomHashOf string (storedType type)) ∧
      (storedType type = .symbol → h = symbolHash type) ∧
      rt.newAtom (some p) type malloc = rt.makeAtom (some p) h (storedType type) malloc := by
  obtain ⟨str, isStr, isHeld⟩ := content_eq_some.mp isContent
  obtain ⟨-, rfl, isPlain⟩ := Prod.mk.inj isHeld |>.imp_right Prod.mk.inj
  have interns : storedType type = type → type ≠ .symbol →
      rt.internAtom p type malloc =
        rt.makeAtom (some p) (atomHashOf str.string type) type malloc := by
    intro isStored notSymbol
    rw [isStored] at unique
    rcases formed.find_text str.string notSymbol with ⟨finds, -⟩ | ⟨_, j, _, _, -, -, isText⟩
    · simp [internAtom, isStr, isPlain, finds]
    · exact absurd isText (unique notSymbol j)
  cases type with
  | string => exact ⟨_, fun _ => rfl, by simp [storedType], interns rfl (by decide)⟩
  | globalSymbol => exact ⟨_, fun _ => rfl, by simp [storedType], interns rfl (by decide)⟩
  | symbol => exact ⟨jsAtomHashSymbol, absurd rfl, fun _ => rfl, rfl⟩
  | privateSymbol => exact ⟨jsAtomHashPrivate, absurd rfl, fun _ => rfl, rfl⟩

theorem storedType_ne_private (type : AtomType) : storedType type ≠ .privateSymbol := by
  cases type <;> decide

theorem counted_const (few : i < jsAtomEnd) (owns : AtomRef → Nat) : counted owns i = 1 := by
  rw [counted, if_pos]
  simp [atomIsConst, few]

/-- The `i`-th name becomes the `i`-th atom. -/
theorem Starting.exists_newAtomInit {name : String} (starting : Starting mallocs i rt)
    (apart : Apart mallocs) (isName : jsAtomInit[i - 1]? = some name)
    (isString : (mallocs i).string = some p) :
    ∃ v after, rt.newAtomInit p name (initType i) (mallocs i) = some (v, after) ∧
      ((v = jsAtomNull ∧ ¬Suffices (mallocs i) rt) ∨ v = i ∧ Starting mallocs (i + 1) after) := by
  have few : i < jsAtomEnd := by
    have inside := (List.getElem?_eq_some_iff.mp isName).1
    rw [jsAtomEnd]
    omega
  have available := starting.available apart
  have isFree := available.string p isString
  have raised : Raised (fun _ => 0) (fun ref => [AtomRef.value p].count ref) rt _ :=
    starting.toSound.allocString (initString name) isFree fun ref => by simp
  have isContent := content_jsAllocString rt p (initString name)
  have sameText := starting.toSound.text_jsAllocString isFree (initString name)
  have isInit : initText i = some (storedType (initType i), (initString name).units) := by
    rw [initText, isName, Option.map_some]
  have unique : storedType (initType i) ≠ .symbol → ∀ j, (rt.jsAllocString p
      (initString name)).text j ≠ some (storedType (initType i), (initString name).units) := by
    intro notSymbol j isText
    rw [sameText] at isText
    have before := starting.lt_of_text isText
    have positive : 1 ≤ j :=
      Nat.one_le_iff_ne_zero.mpr (starting.toSound.ne_null_of_text isText notSymbol)
    rw [starting.texts j positive before] at isText
    have same := initText_unique positive starting.order.positive notSymbol isText isInit
    omega
  obtain ⟨h, hash, symbol, makes⟩ := newAtom_eq_makeAtom (mallocs i) raised.sound.toFormed
    isContent unique
  have order : InOrder i (rt.jsAllocString p (initString name)) := starting.order.congr rfl rfl
  obtain ⟨v, after, runs, result⟩ := order.exists_makeAtom few raised.sound isContent
    (available.fresh isString _) (storedType_ne_private _) hash unique
  refine ⟨v, after, makes.trans runs, ?_⟩
  rcases result with ⟨isNull, noMemory⟩ | ⟨isNext, made, order, memory, isPlace, isHash, hashes⟩
  · exact .inl ⟨isNull, fun enough => noMemory (enough.congr rfl rfl)⟩
  refine .inr ⟨isNext, made.sound.congr_owns (fun _ => by simp) (fun j => ?_) (fun _ has _ =>
    absurd has (Nat.lt_irrefl 0)), order, fun j positive before => ?_,
    fun j positive before => ?_, fun q isUsed => ?_⟩
  · by_cases same : j = i
    · rw [same, counted_const few, counted_const few]
    · simp [counted, Ne.symm same]
  · rcases Nat.lt_succ_iff_lt_or_eq.mp before with isBefore | rfl
    · obtain ⟨_, -, isText⟩ := exists_initText positive (isBefore.trans few)
      rw [isText]
      refine made.keeps.text ?_ ?_
      · rw [counted_const (isBefore.trans few)]
        exact Nat.one_pos
      · rw [sameText, starting.texts j positive isBefore, isText]
    · rw [made.text, isInit]
  · rcases Nat.lt_succ_iff_lt_or_eq.mp before with isBefore | rfl
    · obtain ⟨name', isName', isText⟩ := exists_initText positive (isBefore.trans few)
      obtain ⟨q, count, string, isPlaceQ, isContentQ, -⟩ :=
        text_eq_some.mp ((starting.texts j positive isBefore).trans isText)
      obtain ⟨str, isStr, isHeld⟩ := content_eq_some.mp isContentQ
      have isOther : q ≠ p := by
        rintro rfl
        simp [isFree] at isStr
      have notNull : q ∉ (mallocs i).nullAtom := fun isNull => by
        simp [available.nullAtom q isNull] at isStr
      have isHashQ := hashes q isOther notNull
      have readsQ : (rt.jsAllocString p (initString name)).read j = some (q, str) := by
        refine read_eq_some.mpr ⟨isPlaceQ, ?_⟩
        rw [AtomTable.jsAllocString, strings_write, Function.update_of_ne isOther, isStr]
      have isType : str.atomType = some (storedType (initType j)) :=
        (Prod.mk.inj (Prod.mk.inj isHeld).2).2
      have has : 0 < counted (fun _ => 0) j := by
        rw [counted_const (isBefore.trans few)]
        exact Nat.one_pos
      calc after.jsAtomGetKind j
        _ = (rt.jsAllocString p (initString name)).jsAtomGetKind j :=
          made.keeps.jsAtomGetKind has readsQ (by simp [isType]) isHashQ
        _ = rt.jsAtomGetKind j :=
          jsAtomGetKind_congr (read_eq_some.mpr ⟨isPlaceQ, isStr⟩) readsQ rfl rfl
        _ = some (kindOf (initType j)) := starting.kinds j positive isBefore
    · obtain ⟨q, count, string, isPlaceQ, isContentQ, -⟩ := text_eq_some.mp made.text
      obtain rfl := Option.some_inj.mp (isPlace.symm.trans isPlaceQ)
      obtain ⟨str, isStr, isHeld⟩ := content_eq_some.mp isContentQ
      refine jsAtomGetKind_eq (read_eq_some.mpr ⟨isPlace, isStr⟩)
        (atomIsTaggedInt_of_lt made.notNumber) (Prod.mk.inj (Prod.mk.inj isHeld).2).2
        fun isSymbol => ?_
      have sameHash : str.hash = h := by simpa [AtomTable.hashes, isStr] using isHash
      exact sameHash.trans (symbol isSymbol)
  · by_cases same : q = p
    · exact ⟨i, Nat.lt_succ_self i, by simp [same, given, isString]⟩
    · rcases memory q same isUsed with isBefore | isNull
      · rw [AtomTable.jsAllocString, content_write, Function.update_of_ne same] at isBefore
        obtain ⟨j, before, isGiven⟩ := starting.memory q isBefore
        exact ⟨j, Nat.lt_succ_of_lt before, isGiven⟩
      · exact ⟨i, Nat.lt_succ_self i, by simp [given, Option.mem_def.mp isNull]⟩

/-- Every allocation is made. -/
structure Ample (mallocs : Nat → Mallocs) : Prop where
  hash : ∀ i, (mallocs i).hash = true
  array : ∀ i, (mallocs i).array = true
  nullAtom : ∀ i, (mallocs i).nullAtom ≠ none
  atom : ∀ i, (mallocs i).atom ≠ none
  string : ∀ i, (mallocs i).string ≠ none

theorem InOrder.suffices (order : InOrder i rt) (ample : Ample mallocs) (j : Nat) :
    Suffices (mallocs j) rt := by
  have small := order.small
  have max : jsAtomMax = 2 ^ 30 - 1 := rfl
  exact ⟨ample.atom j, fun _ => ⟨by omega, ample.array j, fun _ => ample.nullAtom j⟩⟩

theorem Starting.exists_initAtoms {rest : List String} (starting : Starting mallocs i rt)
    (apart : Apart mallocs) (atMost : i ≤ jsAtomEnd) (isRest : jsAtomInit.drop (i - 1) = rest) :
    ∃ result, initAtoms mallocs i rest rt = some result ∧
      (∀ last ∈ result, Starting mallocs jsAtomEnd last) ∧ (Ample mallocs → result ≠ none) := by
  have positive := starting.order.positive
  induction rest generalizing i rt with
  | nil =>
      have length := congrArg List.length isRest
      rw [List.length_drop, List.length_nil] at length
      have isEnd : jsAtomEnd = jsAtomInit.length + 1 := rfl
      have isLast : i = jsAtomEnd := by omega
      refine ⟨some rt, rfl, ?_, by simp⟩
      rintro _ ⟨⟩
      exact isLast ▸ starting
  | cons name rest ih =>
      have isName : jsAtomInit[i - 1]? = some name := by
        rw [← List.head?_drop, isRest, List.head?_cons]
      have isRest' : jsAtomInit.drop (i + 1 - 1) = rest := by
        rw [show i + 1 - 1 = i - 1 + 1 by omega, ← List.drop_drop, isRest, List.drop_one,
          List.tail_cons]
      have few : i + 1 ≤ jsAtomEnd := by
        have inside := (List.getElem?_eq_some_iff.mp isName).1
        rw [jsAtomEnd]
        omega
      cases isString : (mallocs i).string with
      | none => exact ⟨none, by simp [initAtoms, isString], by simp, fun ample =>
          absurd isString (ample.string i)⟩
      | some p =>
          obtain ⟨v, after, runs, result⟩ := starting.exists_newAtomInit apart isName isString
          rcases result with ⟨isNull, noMemory⟩ | ⟨isNext, startingNow⟩
          · exact ⟨none, by simp [initAtoms, isString, runs, isNull], by simp, fun ample =>
              absurd (starting.order.suffices ample i) noMemory⟩
          · obtain ⟨result, goesOn, isResult⟩ := ih startingNow few isRest' (Nat.le_add_left 1 i)
            refine ⟨result, ?_, isResult⟩
            have notNull : v ≠ jsAtomNull := by
              rw [isNext]
              exact Nat.one_le_iff_ne_zero.mp positive
            simp [initAtoms, isString, runs, notNull, goesOn]

/-- The table before the first atom. -/
def emptyTable : AtomTable :=
  ⟨List.replicate 256 0, 0, 512, [], 0, fun _ => none⟩

theorem starting_emptyTable (mallocs : Nat → Mallocs) : Starting mallocs 1 emptyTable := by
  have noArray : emptyTable.atomArray = [] := rfl
  have noPlace : ∀ j, emptyTable.place j = none := fun _ => rfl
  have noNext : ∀ j, emptyTable.nextFree j = none := fun _ => rfl
  have noStrings : ∀ p, emptyTable.strings p = none := fun _ => rfl
  have noContent : ∀ p, emptyTable.content p = none := fun _ => rfl
  have noRead : ∀ j, emptyTable.read j = none := fun _ => rfl
  have structured : emptyTable.Structured := by
    refine ⟨?_, ?_, ?_, ?_, ?_, ⟨[], .nil, List.nodup_nil, ?_⟩, rfl, Nat.zero_le _⟩ <;>
      simp [noArray, noPlace, noNext, noStrings, noRead]
  have noHead : ∀ index, emptyTable.head index = none := by
    intro index
    simp only [head, emptyTable, Option.bind_eq_none_iff, List.getElem?_replicate]
    intro first isFirst
    split at isFirst
    · rw [← Option.some_inj.mp isFirst]
      rfl
    · cases isFirst
  have noneHashed : ∀ j, ¬emptyTable.Hashed j := by
    rintro j ⟨p, str, type, reads, -⟩
    simp [noRead] at reads
  have formed : emptyTable.Formed := by
    refine ⟨structured, ⟨8, List.length_replicate⟩, ?_⟩
    rw [funext noHead]
    exact HashChains.Table.empty.congr_members fun j => iff_of_false (noneHashed j) id
  refine ⟨⟨formed, ?_, ?_, ?_⟩, ⟨le_rfl, ?_, rfl, ?_, ?_⟩, fun j positive before => ?_,
    fun j positive before => ?_, ?_⟩
  case refine_7 => omega
  case refine_8 => omega
  all_goals simp [noArray, noContent, FreeFrom]

theorem starting_jsInitAtoms (apart : Apart mallocs) :
    ∃ result, jsInitAtoms mallocs (fun _ => none) = some result ∧
      (∀ rt ∈ result, Starting mallocs jsAtomEnd rt) ∧ (Ample mallocs → result ≠ none) := by
  unfold jsInitAtoms
  cases isHash : (mallocs 0).hash with
  | false =>
      refine ⟨none, by simp [jsResizeAtomHash], by simp, fun ample => ?_⟩
      simp [ample.hash 0] at isHash
  | true =>
      obtain ⟨result, runs, isStarting, enough⟩ :=
        (starting_emptyTable mallocs).exists_initAtoms apart (by simp [jsAtomEnd_eq]) rfl
      refine ⟨result, ?_, isStarting, enough⟩
      simpa [jsResizeAtomHash, HashChains.rehash, emptyTable, -List.reduceReplicate] using runs

theorem Starting.interned (starting : Starting mallocs jsAtomEnd rt) :
    Interned (fun _ => 0) rt where
  toSound := starting.toSound
  numbers {i n} small isText := by
    have before := starting.lt_of_text isText
    have positive : 1 ≤ i := Nat.one_le_iff_ne_zero.mpr
      (starting.toSound.ne_null_of_text isText (by decide))
    obtain ⟨name, isName, isInit⟩ := exists_initText positive before
    rw [starting.texts i positive before, isInit, Option.some_inj, Prod.mk.injEq] at isText
    have noNumber := isNumString_initString name (List.mem_of_getElem? isName)
    have max : jsAtomMaxInt = 2 ^ 31 - 1 := rfl
    rw [isNumString_eq_some.mpr ⟨(by omega : n < 2 ^ 32), isText.2⟩] at noNumber
    cases noNumber
  range has := absurd has (Nat.lt_irrefl 0)
  emptyString := by
    rw [starting.texts _ (by decide) (by simp [jsAtomEnd_eq, jsAtomEmptyString])]
    rfl

/-- The kind of a predefined atom: names, then one private name, then symbols. -/
def initKind (i : Nat) : AtomKind :=
  if i < jsAtomPrivateBrand then .string
  else if i = jsAtomPrivateBrand then .privateSymbol
  else .symbol

theorem kindOf_initType (i : Nat) : kindOf (initType i) = initKind i := by
  have brand : jsAtomPrivateBrand = (202 : Nat) := rfl
  have toPrimitive : jsAtomSymbolToPrimitive = (203 : Nat) := rfl
  rcases Nat.lt_trichotomy i 202 with name | isBrand | isSymbol
  · have few : ¬203 ≤ i := by omega
    simp [initType, initKind, kindOf, brand, toPrimitive, name, name.ne, few]
  · simp [initType, initKind, kindOf, brand, isBrand]
  · have many : 203 ≤ i := isSymbol
    simp [initType, initKind, kindOf, brand, toPrimitive, isSymbol.ne', isSymbol.not_gt, many]

/-- `JS_InitAtoms` gives the atoms of the engine the indices that their constants say
and their kinds, and makes no others; it fails only where memory does not suffice. -/
theorem jsInitAtoms_exact (apart : Apart mallocs) :
    ∃ result, jsInitAtoms mallocs (fun _ => none) = some result ∧
      (∀ rt ∈ result, Interned (fun _ => 0) rt ∧
        (∀ i : Nat, 1 ≤ i → rt.text i = initText i) ∧
        ∀ i : Nat, 1 ≤ i → i < jsAtomEnd → rt.jsAtomGetKind i = some (initKind i)) ∧
      (Ample mallocs → result ≠ none) := by
  obtain ⟨result, runs, isStarting, enough⟩ := starting_jsInitAtoms apart
  refine ⟨result, runs, fun rt isRt => ?_, enough⟩
  have starting := isStarting rt isRt
  refine ⟨starting.interned, fun i positive => ?_, fun i positive few =>
    (starting.kinds i positive few).trans (congrArg some (kindOf_initType i))⟩
  by_cases before : i < jsAtomEnd
  · exact starting.texts i positive before
  · have noName : initText i = none := by
      rw [initText, List.getElem?_eq_none, Option.map_none]
      rw [jsAtomEnd] at before
      omega
    rw [noName]
    exact Option.eq_none_iff_forall_ne_some.mpr fun _ isText => before (starting.lt_of_text isText)

/-- Memory that goes on and on. -/
def successive (i : Nat) : Mallocs :=
  ⟨true, true, some (3 * i), some (3 * i + 1), some (3 * i + 2)⟩

theorem apart_successive : Apart successive where
  once i := by simp [given, successive]
  apart {i j p} member isOther := by
    simp only [given, successive, Option.toList_some, List.cons_append, List.nil_append,
      List.mem_cons, List.not_mem_nil, or_false] at member isOther
    unfold Address at *
    omega

theorem ample_successive : Ample successive where
  hash _ := rfl
  array _ := rfl
  nullAtom _ := Option.some_ne_none _
  atom _ := Option.some_ne_none _
  string _ := Option.some_ne_none _

theorem jsInitAtoms_exact_successive : ∃ rt,
    jsInitAtoms successive (fun _ => none) = some (some rt) ∧ Interned (fun _ => 0) rt ∧
      rt.text jsAtomEmptyString = some (.string, []) ∧
        rt.jsAtomGetKind jsAtomPrivateBrand = some .privateSymbol := by
  obtain ⟨result, runs, exact, enough⟩ := jsInitAtoms_exact apart_successive
  obtain ⟨rt, rfl⟩ := Option.ne_none_iff_exists'.mp (enough ample_successive)
  obtain ⟨interned, texts, kinds⟩ := exact rt rfl
  have isEnd : jsAtomPrivateBrand < jsAtomEnd := by rw [jsAtomEnd_eq]; decide
  exact ⟨rt, runs, interned, (texts _ (by decide)).trans rfl, kinds _ (by decide) isEnd⟩

end AtomTable

end Jib.QuickJS
