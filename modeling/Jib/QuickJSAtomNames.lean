import Jib.NameSlices
import Jib.QuickJSAtomNumbers
import Jib.QuickJSInterning
import Mathlib.Data.Nat.Bitwise

/-!
# The names of atoms

Every name has one atom: a number its tagged value, other names an atom of the
table.  Names that are given as C strings are looked up by their bytes before
they are decoded, as the names of globals and functions are.
-/

namespace Jib.QuickJS

open UnicodeText

/-! ## Tagged numbers -/

theorem atomFromUInt32_eq {n : Nat} (small : n ≤ jsAtomMaxInt) :
    atomFromUInt32 n = jsAtomTagInt + n := by
  have below : n < 2 ^ 31 := by
    have max : jsAtomMaxInt = 2 ^ 31 - 1 := rfl
    omega
  have split := Nat.two_pow_add_eq_or_of_lt below 1
  rw [Nat.mul_one] at split
  rw [atomFromUInt32, jsAtomTagInt, Nat.or_comm, split]

theorem atomToUInt32_eq (atom : Nat) : atomToUInt32 atom = atom % 2 ^ 31 := by
  rw [atomToUInt32, jsAtomMaxInt, jsAtomTagInt, Nat.and_two_pow_sub_one_eq_mod]

theorem atomIsTaggedInt_iff {v : Nat} (inRange : v < 2 ^ 32) :
    atomIsTaggedInt v = true ↔ jsAtomTagInt ≤ v := by
  rw [atomIsTaggedInt, bne_iff_ne, jsAtomTagInt, Nat.and_comm, Nat.two_pow_and]
  by_cases isTagged : 2 ^ 31 ≤ v
  · have bit : v.testBit 31 = true := by
      rw [Nat.testBit_eq_decide_div_mod_eq, decide_eq_true_eq]
      omega
    simpa [bit] using isTagged
  · have bit : v.testBit 31 = false := Nat.testBit_lt_two_pow (by omega)
    simpa [bit] using isTagged

theorem atomToUInt32_le (atom : Nat) : atomToUInt32 atom ≤ jsAtomMaxInt :=
  Nat.and_le_right

theorem atomToUInt32_atomFromUInt32 {n : Nat} (small : n ≤ jsAtomMaxInt) :
    atomToUInt32 (atomFromUInt32 n) = n := by
  have max : jsAtomMaxInt = 2 ^ 31 - 1 := rfl
  have tag : jsAtomTagInt = 2 ^ 31 := rfl
  rw [atomToUInt32_eq, atomFromUInt32_eq small]
  omega

theorem atomFromUInt32_atomToUInt32 {v : Nat} (inRange : v < 2 ^ 32)
    (isTagged : atomIsTaggedInt v = true) : atomFromUInt32 (atomToUInt32 v) = v := by
  have atLeast := (atomIsTaggedInt_iff inRange).mp isTagged
  have tag : jsAtomTagInt = 2 ^ 31 := rfl
  rw [atomFromUInt32_eq (atomToUInt32_le v), atomToUInt32_eq]
  omega

theorem atomFromUInt32_lt {n : Nat} (small : n ≤ jsAtomMaxInt) : atomFromUInt32 n < 2 ^ 32 := by
  have max : jsAtomMaxInt = 2 ^ 31 - 1 := rfl
  have tag : jsAtomTagInt = 2 ^ 31 := rfl
  rw [atomFromUInt32_eq small]
  omega

theorem atomIsTaggedInt_atomFromUInt32 {n : Nat} (small : n ≤ jsAtomMaxInt) :
    atomIsTaggedInt (atomFromUInt32 n) = true := by
  rw [atomIsTaggedInt_iff (atomFromUInt32_lt small), atomFromUInt32_eq small]
  exact Nat.le_add_right _ _

theorem atomIsTaggedInt_of_lt {v : Nat} (small : v < jsAtomTagInt) :
    atomIsTaggedInt v = false := by
  have tag : jsAtomTagInt = 2 ^ 31 := rfl
  have notTagged := (atomIsTaggedInt_iff (by omega : v < 2 ^ 32)).not.mpr (Nat.not_le_of_lt small)
  simpa using notTagged

namespace AtomTable

variable {rt after : AtomTable} {i : JSAtom} {v w : Nat} {p : Address} {str : JSAtomStruct}
  {owns left gained : AtomRef → Nat} {type : AtomType} {units : List UInt16} {malloc : Mallocs}

/-! ## Names -/

/-- The type and the chars of an atom, which may be a number. -/
def atomName (rt : AtomTable) (v : JSAtom) : Option (AtomType × List UInt16) :=
  if atomIsTaggedInt v then some (.string, decimal (atomToUInt32 v)) else rt.text v

/-- References are counted, numbers are not in the table, and strings may be empty. -/
structure Interned (owns : AtomRef → Nat) (rt : AtomTable) : Prop extends Sound owns rt where
  numbers : ∀ {i n}, n ≤ jsAtomMaxInt → rt.text i ≠ some (.string, decimal n)
  range : ∀ {v : Nat}, 0 < owns (.atom v) → v < 2 ^ 32
  emptyString : rt.text jsAtomEmptyString = some (.string, [])

/-- A new reference to an atom with a name. -/
structure Named (left : AtomRef → Nat) (rt : AtomTable) (v : JSAtom) (type : AtomType)
    (units : List UInt16) (after : AtomTable) : Prop where
  interned : Interned (fun ref => left ref + [AtomRef.atom v].count ref) after
  keeps : Keeps left rt after
  name : after.atomName v = some (type, units)
  notNull : v ≠ jsAtomNull

/-- An atom with a name, or `JS_ATOM_NULL` where it is to be made and memory does not
suffice. -/
def Names (left : AtomRef → Nat) (malloc : Mallocs) (rt : AtomTable) (v : JSAtom)
    (type : AtomType) (units : List UInt16) (after : AtomTable) : Prop :=
  (v = jsAtomNull ∧ Interned left after ∧ Keeps left rt after ∧ ¬Suffices malloc rt ∧
    (type ≠ .symbol → ∀ w, rt.atomName w ≠ some (type, units))) ∨
  Named left rt v type units after

theorem atomName_of_lt (rt : AtomTable) (small : v < jsAtomTagInt) :
    rt.atomName v = rt.text v := by
  rw [atomName, atomIsTaggedInt_of_lt small, if_neg Bool.false_ne_true]

theorem atomName_atomFromUInt32 (rt : AtomTable) {n : Nat} (small : n ≤ jsAtomMaxInt) :
    rt.atomName (atomFromUInt32 n) = some (.string, decimal n) := by
  rw [atomName, if_pos (atomIsTaggedInt_atomFromUInt32 small), atomToUInt32_atomFromUInt32 small]

theorem atomIsConst_jsAtomEmptyString : atomIsConst jsAtomEmptyString = true := by
  simp [atomIsConst, jsAtomEmptyString, jsAtomEnd_eq]

/-- The type that an atom has; private symbols differ from others in their hash. -/
def storedType : AtomType → AtomType
  | .privateSymbol => .symbol
  | type => type

/-- References keep the names of their atoms. -/
theorem Keeps.atomName {name : AtomType × List UInt16} (keeps : Keeps owns rt after)
    (has : 0 < owns (.atom v)) (isName : rt.atomName v = some name) :
    after.atomName v = some name := by
  unfold AtomTable.atomName at isName ⊢
  split
  · rwa [if_pos ‹_›] at isName
  · rw [if_neg ‹_›] at isName
    refine keeps.text ?_ isName
    unfold counted
    split
    · exact Nat.one_pos
    · exact has

theorem exists_read (notTagged : ¬atomIsTaggedInt v) (isName : rt.atomName v = some (type, units)) :
    ∃ p str, rt.read v = some (p, str) ∧ str.atomType = some type ∧ str.string.units = units := by
  rw [AtomTable.atomName, if_neg notTagged] at isName
  obtain ⟨p, count, string, isPlace, isContent, isUnits⟩ := text_eq_some.mp isName
  obtain ⟨str, isStr, isHeld⟩ := content_eq_some.mp isContent
  obtain ⟨-, rfl, isType⟩ := Prod.mk.inj isHeld |>.imp_right Prod.mk.inj
  exact ⟨p, str, read_eq_some.mpr ⟨isPlace, isStr⟩, isType, isUnits⟩

namespace Interned

/-- Two atoms with one name are the same. -/
theorem atom_unique (interned : Interned owns rt) (notSymbol : type ≠ .symbol)
    (inRange : v < 2 ^ 32) (otherInRange : w < 2 ^ 32) (isName : rt.atomName v = some (type, units))
    (isOther : rt.atomName w = some (type, units)) : v = w := by
  unfold atomName at isName isOther
  split at isName <;> split at isOther
  · next isTagged otherTagged =>
      obtain ⟨-, isUnits⟩ := Prod.mk.inj (Option.some_inj.mp (isName.trans isOther.symm))
      rw [← atomFromUInt32_atomToUInt32 inRange isTagged, decimal_injective isUnits,
        atomFromUInt32_atomToUInt32 otherInRange otherTagged]
  · exact absurd (isOther.trans isName.symm) (interned.numbers (atomToUInt32_le v))
  · exact absurd (isName.trans isOther.symm) (interned.numbers (atomToUInt32_le w))
  · obtain ⟨p, count, string, isPlace, isContent, isUnits⟩ := text_eq_some.mp isName
    obtain ⟨q, count', string', isPlace', isContent', isUnits'⟩ := text_eq_some.mp isOther
    obtain ⟨str, isStr, isHeld⟩ := content_eq_some.mp isContent
    obtain ⟨str', isStr', isHeld'⟩ := content_eq_some.mp isContent'
    obtain ⟨-, rfl, isType⟩ := Prod.mk.inj isHeld |>.imp_right Prod.mk.inj
    obtain ⟨-, rfl, isType'⟩ := Prod.mk.inj isHeld' |>.imp_right Prod.mk.inj
    exact interned.toFormed.unique (read_eq_some.mpr ⟨isPlace, isStr⟩)
      (read_eq_some.mpr ⟨isPlace', isStr'⟩) isType isType' notSymbol (isUnits.trans isUnits'.symm)

theorem exists_atomName (interned : Interned owns rt) (has : 0 < owns (.atom v)) :
    ∃ type units, rt.atomName v = some (type, units) := by
  by_cases small : v < jsAtomTagInt
  · obtain ⟨p, isPlace⟩ := interned.held has small
    obtain ⟨count, string, type, isContent⟩ := interned.toSound.exists_content isPlace
    exact ⟨type, string.units, (rt.atomName_of_lt small).trans
      (text_eq_some.mpr ⟨p, count, string, isPlace, isContent, rfl⟩)⟩
  · have isTagged := (atomIsTaggedInt_iff (interned.range has)).mpr (Nat.le_of_not_lt small)
    exact ⟨.string, _, if_pos isTagged⟩

/-- The invariant holds on where no number comes into the table. -/
theorem next (interned : Interned owns rt) (sound : Sound gained after)
    (keeps : Keeps left rt after) (range : ∀ v : Nat, 0 < gained (.atom v) → v < 2 ^ 32)
    (new : ∀ i units, after.text i = some (.string, units) →
      rt.text i = some (.string, units) ∨ ∀ n ≤ jsAtomMaxInt, units ≠ decimal n) :
    Interned gained after where
  toSound := sound
  numbers {i n} small isText := by
    rcases new i _ isText with before | notNumber
    · exact interned.numbers small before
    · exact notNumber n small rfl
  range := range _
  emptyString := by
    refine keeps.text ?_ interned.emptyString
    rw [counted, if_pos atomIsConst_jsAtomEmptyString]
    exact Nat.one_pos

theorem raised (interned : Interned owns rt) (raised : Raised left gained rt after)
    (range : ∀ v : Nat, 0 < gained (.atom v) → v < 2 ^ 32) : Interned gained after :=
  interned.next raised.sound raised.keeps range fun i units isText =>
    .inl (raised.noNew i .string units (by decide) isText)

theorem lowered (interned : Interned owns rt) (lowered : Lowered left rt after)
    (fewer : ∀ ref, left ref ≤ owns ref) : Interned left after :=
  interned.next lowered.sound lowered.keeps (fun _ has => interned.range (has.trans_le (fewer _)))
    fun i units isText => .inl (lowered.old.noNew i .string units (by decide) isText)

theorem range_atom (interned : Interned owns rt) (fewer : ∀ ref, left ref ≤ owns ref)
    (inRange : v < 2 ^ 32) : ∀ w : Nat, 0 < left (.atom w) + [AtomRef.atom v].count (.atom w) →
      w < 2 ^ 32 := by
  intro w has
  by_cases same : v = w
  · exact same ▸ inRange
  · have fewerW := fewer (.atom w)
    rw [List.count_singleton, if_neg (by simpa using same)] at has
    exact interned.range (by omega : 0 < owns (.atom w))

/-- A new atom has a name where it is no number. -/
theorem names (interned : Interned owns rt) (fewer : ∀ ref, left ref ≤ owns ref)
    (gives : Gives left malloc rt v type units after)
    (notNumber : type = .string → ∀ n ≤ jsAtomMaxInt, units ≠ decimal n) :
    Names left malloc rt v type units after := by
  have tag : jsAtomTagInt = 2 ^ 31 := rfl
  rcases gives with ⟨isNull, raised, noMemory, noText⟩ | made
  · refine .inl ⟨isNull, interned.raised raised fun w has =>
      interned.range (has.trans_le (fewer _)), raised.keeps, noMemory,
      fun notSymbol w isName => ?_⟩
    unfold atomName at isName
    split at isName
    · obtain ⟨isType, isUnits⟩ := Prod.mk.inj (Option.some_inj.mp isName)
      exact notNumber isType.symm _ (atomToUInt32_le w) isUnits.symm
    · exact noText notSymbol w isName
  · have notLarge : v < jsAtomTagInt := made.notNumber
    refine .inr ⟨interned.next made.sound made.keeps (interned.range_atom fewer (by omega))
      fun i units' isText => ?_, made.keeps, (after.atomName_of_lt notLarge).trans made.text,
      made.notNull⟩
    by_cases same : i = v
    · subst same
      obtain ⟨isType, isUnits⟩ := Prod.mk.inj (Option.some_inj.mp (made.text.symm.trans isText))
      exact .inr (isUnits ▸ notNumber isType)
    · exact .inl (made.others i .string units' same (by decide) isText)

/-! ## New atoms -/

theorem exists_newAtom (interned : Interned owns rt) (type : AtomType) (str : Option Address)
    (takes : ∀ ref, owns ref = left ref + (valueRefs str).count ref)
    (notHuge : rt.atomArray.length * 3 < 2 ^ 31) (fresh : Fresh malloc rt)
    (hasString : type = .string ∨ type = .globalSymbol → str ≠ none)
    (notNumber : type = .string → ∀ n ≤ jsAtomMaxInt, rt.unitsOf str ≠ decimal n) :
    ∃ v after, rt.newAtom str type malloc = some (v, after) ∧
      Names left malloc rt v (storedType type) (rt.unitsOf str) after := by
  have fewer : ∀ ref, left ref ≤ owns ref := fun ref => by simp [takes]
  have symbol : ∀ h, ∃ v after, rt.makeAtom str h .symbol malloc = some (v, after) ∧
      Names left malloc rt v .symbol (rt.unitsOf str) after := by
    intro h
    obtain ⟨v, after, makes, gives⟩ := interned.toSound.exists_makeAtom (h := h) .symbol str
      takes notHuge fresh (by decide) (absurd rfl) (absurd rfl)
    exact ⟨v, after, makes, interned.names fewer gives (by simp)⟩
  have string : type = .string ∨ type = .globalSymbol → ∃ v after,
      (do rt.internAtom (← str) type malloc) = some (v, after) ∧
        Names left malloc rt v type (rt.unitsOf str) after := by
    intro isString
    obtain ⟨p, rfl⟩ := Option.ne_none_iff_exists'.mp (hasString isString)
    obtain ⟨v, after, interns, gives⟩ := interned.toSound.exists_internAtom type
      (fun ref => by simpa [valueRefs] using takes ref) notHuge fresh
      (fun isSymbol => by simp [isSymbol] at isString)
      (fun isPrivate => by simp [isPrivate] at isString)
    exact ⟨v, after, interns, interned.names fewer gives notNumber⟩
  cases type with
  | string => exact string (.inl rfl)
  | globalSymbol => exact string (.inr rfl)
  | symbol => exact symbol jsAtomHashSymbol
  | privateSymbol => exact symbol jsAtomHashPrivate

/-- A reference to the atom of a number is nothing but the number. -/
theorem number (interned : Interned owns rt) {n : Nat} (small : n ≤ jsAtomMaxInt) :
    Named owns rt (atomFromUInt32 n) .string (decimal n) rt := by
  have tagged := atomFromUInt32_eq small
  have sound : Sound (fun ref => owns ref + [AtomRef.atom (atomFromUInt32 n)].count ref) rt := by
    refine interned.toSound.congr_owns (fun p => by simp) (fun i => ?_) fun i has notNumber =>
      .inl ?_
    · unfold counted
      split
      · rfl
      · next notConst =>
          have isOther : atomFromUInt32 n ≠ i := by
            rintro rfl
            simp [atomIsConst, tagged] at notConst
          simp [isOther]
    · have isOther : atomFromUInt32 n ≠ i := by
        rintro rfl
        exact Nat.not_lt_of_le (tagged ▸ Nat.le_add_right _ n) notNumber
      simpa [isOther] using has
  refine ⟨interned.next sound (.refl owns rt) (interned.range_atom (fun _ => le_rfl)
    (atomFromUInt32_lt small)) fun i units isText => .inl isText, .refl owns rt,
    rt.atomName_atomFromUInt32 small, ?_⟩
  exact Nat.ne_of_gt (tagged ▸ Nat.lt_add_right n (by decide))

/-- A string becomes the atom that has its chars as name. -/
theorem exists_jsNewAtomStr (interned : Interned owns rt)
    (takes : ∀ ref, owns ref = left ref + [AtomRef.value p].count ref)
    (notHuge : rt.atomArray.length * 3 < 2 ^ 31) (fresh : Fresh malloc rt) :
    ∃ v after, rt.jsNewAtomStr p malloc = some (v, after) ∧
      Names left malloc rt v .string (rt.unitsOf (some p)) after := by
  have fewer : ∀ ref, left ref ≤ owns ref := fun ref => by simp [takes]
  obtain ⟨str, isStr, -⟩ := interned.toSound.exists_string (p := p) (by simp [takes])
  have isUnits : rt.unitsOf (some p) = str.string.units := by
    simp [unitsOf, content_eq_some.mpr ⟨str, isStr, rfl⟩]
  have others (notNumber : ∀ n ≤ jsAtomMaxInt, str.string.units ≠ decimal n) :=
    interned.exists_newAtom .string (some p)
      (fun ref => by simpa [valueRefs] using takes ref) notHuge fresh (by simp)
      fun _ => isUnits ▸ notNumber
  cases isNumber : isNumString str.string with
  | none =>
      obtain ⟨v, after, makes, names⟩ := others fun n small isDecimal => by
        have max : jsAtomMaxInt = 2 ^ 31 - 1 := rfl
        have isSome := isNumString_eq_some.mpr ⟨(by omega : n < 2 ^ 32), isDecimal⟩
        simp [isNumber] at isSome
      exact ⟨v, after, by simp [jsNewAtomStr, isStr, isNumber, makes], names⟩
  | some n =>
      obtain ⟨-, isDecimal⟩ := isNumString_eq_some.mp isNumber
      by_cases small : n ≤ jsAtomMaxInt
      · obtain ⟨after, frees, lowered⟩ := interned.toSound.exists_jsFreeString takes
        have named := (interned.lowered lowered fewer).number small
        refine ⟨_, after, by simp [jsNewAtomStr, isStr, isNumber, small, frees], .inr
          ⟨named.interned, lowered.keeps, ?_, named.notNull⟩⟩
        rw [isUnits, isDecimal, named.name]
      · obtain ⟨v, after, makes, names⟩ := others fun m smallM isOther => by
          obtain rfl := decimal_injective (isDecimal.symm.trans isOther)
          exact small smallM
        exact ⟨v, after, by simp [jsNewAtomStr, isStr, isNumber, small, makes], names⟩

end Interned

/-! ## Names as C strings -/

/-- The bytes that `__JS_FindAtom` compares with. -/
def narrowAtom (rt : AtomTable) (i : JSAtom) : Option Bytes :=
  match (rt.place i).bind rt.content with
  | some (_, .str8 chars, some .string) => some chars
  | _ => none

def narrowAtoms (rt : AtomTable) : List Bytes :=
  (List.range rt.atomArray.length).filterMap rt.narrowAtom

theorem narrowAtom_eq_some {name : Bytes} : rt.narrowAtom i = some name ↔
    ∃ p str, rt.read i = some (p, str) ∧ str.atomType = some .string ∧ str.string = .str8 name := by
  rw [narrowAtom]
  constructor
  · intro isName
    split at isName
    · next count chars isHeld =>
        obtain rfl := Option.some_inj.mp isName
        obtain ⟨p, isPlace, isContent⟩ := Option.bind_eq_some_iff.mp isHeld
        obtain ⟨str, isStr, held⟩ := content_eq_some.mp isContent
        obtain ⟨-, isString, isType⟩ := Prod.mk.inj held |>.imp_right Prod.mk.inj
        exact ⟨p, str, read_eq_some.mpr ⟨isPlace, isStr⟩, isType, isString⟩
    · cases isName
  · rintro ⟨p, str, reads, isType, isString⟩
    obtain ⟨isPlace, isStr⟩ := read_eq_some.mp reads
    have isContent := content_eq_some.mpr ⟨str, isStr, rfl⟩
    rw [isPlace, Option.bind_some, isContent, isType, isString]

theorem mem_narrowAtoms {name : Bytes} :
    name ∈ rt.narrowAtoms ↔ ∃ i, rt.narrowAtom i = some name := by
  rw [narrowAtoms, List.mem_filterMap]
  refine ⟨fun ⟨i, _, isName⟩ => ⟨i, isName⟩, fun ⟨i, isName⟩ => ⟨i, ?_, isName⟩⟩
  obtain ⟨p, str, reads, -⟩ := narrowAtom_eq_some.mp isName
  exact List.mem_range.mpr (lt_of_place (read_eq_some.mp reads).1)

/-- `__JS_FindAtom` finds the bytes among those of the atoms. -/
theorem Sound.exists_findAtom (sound : Sound owns rt) (name : Bytes) :
    (name ∉ rt.narrowAtoms ∧ rt.findAtom name = some (jsAtomNull, rt)) ∨
    (name ∈ rt.narrowAtoms ∧ ∃ v after, rt.findAtom name = some (v, after) ∧
      Made owns rt v .string (JSString.str8 name).units after) := by
  rcases sound.toFormed.find_eq (fun _ entry => entry.2.hash = atomHashOf (.str8 name) .string &&
      entry.2.atomType = some .string && entry.2.string = .str8 name)
      (atomHashOf (.str8 name) .string) with
    ⟨ends, nowhere⟩ | ⟨before, i, ⟨p, str⟩, finds, -, reads, isFound⟩
  · refine .inl ⟨fun member => ?_, ?_⟩
    · obtain ⟨i, isName⟩ := mem_narrowAtoms.mp member
      obtain ⟨p, str, reads, isType, isString⟩ := narrowAtom_eq_some.mp isName
      obtain ⟨isPlace, isStr⟩ := read_eq_some.mp reads
      obtain ⟨other, type, isOther, otherType, -, -, hash⟩ := sound.placed isPlace
      obtain rfl := Option.some_inj.mp (isStr.symm.trans isOther)
      obtain rfl := Option.some_inj.mp (isType.symm.trans otherType)
      have sameHash : str.hash = atomHashOf (.str8 name) .string := isString ▸ hash (by decide)
      have missed := nowhere i (p, str) ⟨p, str, _, reads, isType, by decide⟩ reads
        (congrArg rt.bucket sameHash)
      simp [sameHash, isType, isString] at missed
    · unfold findAtom
      rw [show (hashString8 name AtomType.string.code &&& jsAtomHashMask).toNat =
        atomHashOf (.str8 name) .string from rfl]
      simp [ends]
  · simp only [Bool.and_eq_true, decide_eq_true_eq] at isFound
    obtain ⟨⟨-, isType⟩, isString⟩ := isFound
    obtain ⟨isPlace, isStr⟩ := read_eq_some.mp reads
    have isText : rt.text i = some (.string, (JSString.str8 name).units) :=
      text_eq_some.mpr ⟨p, _, _, isPlace, content_eq_some.mpr ⟨str, isStr, rfl⟩ |>.trans
        (by rw [isType]), by rw [isString]⟩
    have raised : Raised owns (fun ref => owns ref + [AtomRef.atom i].count ref) rt _ :=
      sound.acquire reads fun _ => rfl
    have isAfter : (if atomIsConst i then rt
        else rt.write p (some { str with refCount := str.refCount + 1 })).text i = some
          (.string, (JSString.str8 name).units) := by
      split
      · exact isText
      · rw [text_write_count isStr, isText]
    refine .inr ⟨mem_narrowAtoms.mpr ⟨i, narrowAtom_eq_some.mpr ⟨p, str, reads, isType, isString⟩⟩,
      i, _, ?_, raised.sound, raised.keeps, isAfter, sound.ne_null_of_text isText (by decide),
      sound.lt_of_text isText, fun j type units _ notSymbol isThere => ?_⟩
    · unfold findAtom
      rw [show (hashString8 name AtomType.string.code &&& jsAtomHashMask).toNat =
        atomHashOf (.str8 name) .string from rfl]
      cases isConst : atomIsConst i <;> simp [finds, isConst]
    · exact raised.noNew j type units notSymbol isThere

/-! ## New strings -/

/-- The memory for a string and an atom is free. -/
structure Available (malloc : Mallocs) (rt : AtomTable) : Prop extends Fresh malloc rt where
  string : ∀ p ∈ malloc.string, rt.strings p = none
  apartString : ∀ p ∈ malloc.string, p ∉ malloc.nullAtom ∧ p ∉ malloc.atom

/-- A string that is a value, and nothing else. -/
structure NewString (owns : AtomRef → Nat) (malloc : Mallocs) (rt : AtomTable) (p : Address)
    (units : List UInt16) (after : AtomTable) : Prop where
  interned : Interned (fun ref => owns ref + [AtomRef.value p].count ref) after
  keeps : Keeps owns rt after
  units : after.unitsOf (some p) = units
  fresh : Fresh malloc after
  text : after.text = rt.text
  array : after.atomArray = rt.atomArray
  freeIndex : after.atomFreeIndex = rt.atomFreeIndex

theorem Sound.text_jsAllocString (sound : Sound owns rt) (isFree : rt.strings p = none)
    (string : JSString) : (rt.jsAllocString p string).text = rt.text := by
  funext i
  rw [AtomTable.jsAllocString, text, text, place_write]
  cases isPlace : rt.place i with
  | none => rfl
  | some q =>
      obtain ⟨str, -, isStr, -⟩ := sound.placed isPlace
      have isOther : q ≠ p := by
        rintro rfl
        simp [isFree] at isStr
      rw [Option.bind_some, Option.bind_some, content_write, Function.update_of_ne isOther]

theorem Available.fresh (available : Available malloc rt) (isString : malloc.string = some p)
    (string : JSString) : Fresh malloc (rt.jsAllocString p string) := by
  obtain ⟨notNull, notAtom⟩ := available.apartString p isString
  have others : ∀ q, q ≠ p → (rt.jsAllocString p string).strings q = rt.strings q :=
    fun q isOther => Function.update_of_ne isOther _ _
  refine ⟨fun q isNull => ?_, fun q isAtom => ?_, available.apart⟩
  · rw [others q fun same => notNull (same ▸ isNull), available.nullAtom q isNull]
  · rw [others q fun same => notAtom (same ▸ isAtom), available.atom q isAtom]

theorem NewString.atomName (made : NewString owns malloc rt p units after) (v : Nat) :
    after.atomName v = rt.atomName v := by
  rw [AtomTable.atomName, AtomTable.atomName, made.text]

namespace Interned

theorem allocString (interned : Interned owns rt) (available : Available malloc rt)
    (isString : malloc.string = some p) (string : JSString) :
    NewString owns malloc rt p string.units (rt.jsAllocString p string) := by
  have isFree := available.string p isString
  have raised := interned.toSound.allocString string isFree fun _ => rfl
  refine ⟨interned.raised raised fun v has => interned.range (by simpa using has), raised.keeps, ?_,
    available.fresh isString string, interned.toSound.text_jsAllocString isFree string, rfl, rfl⟩
  simp [unitsOf, content_jsAllocString]

/-- `JS_NewStringLen` makes a string where it can. -/
theorem exists_jsNewStringLen (interned : Interned owns rt) (available : Available malloc rt)
    (buf : Bytes) :
    (rt.jsNewStringLen buf malloc = (none, rt) ∧ (newStringLen buf = none ∨ malloc.string = none)) ∨
    ∃ string p after, newStringLen buf = some string ∧
      rt.jsNewStringLen buf malloc = (some p, after) ∧
        NewString owns malloc rt p string.units after := by
  unfold jsNewStringLen
  cases newStringLen buf with
  | none => exact .inl ⟨rfl, .inl rfl⟩
  | some string =>
      cases isString : malloc.string with
      | none => exact .inl ⟨rfl, .inr rfl⟩
      | some p =>
          exact .inr ⟨string, p, _, rfl, rfl, interned.allocString available isString string⟩

/-- A name that is given as a C string, from its bytes. -/
theorem exists_jsNewAtomLen (interned : Interned owns rt)
    (notHuge : rt.atomArray.length * 3 < 2 ^ 31) (available : Available malloc rt) (name : Bytes) :
    ∃ v after, rt.jsNewAtomLen name malloc = some (v, after) ∧
      ((v = jsAtomNull ∧ Interned owns after ∧ Keeps owns rt after ∧
          ∀ units, nameUnits rt.narrowAtoms name = some units →
            malloc.string = none ∨ ¬Suffices malloc rt ∧
              ∀ w, rt.atomName w ≠ some (.string, units)) ∨
        ∃ units, nameUnits rt.narrowAtoms name = some units ∧
          Named owns rt v .string units after) := by
  have looks : (name.isEmpty || !isDigit (name.headD 0)) = true ↔
      name.length = 0 ∨ startsWithDigit name = false := by
    cases name <;> simp [startsWithDigit, isDigit, imp_iff_not_or]
  by_cases finds : FindsAtom rt.narrowAtoms name
  · rcases interned.toSound.exists_findAtom name with
      ⟨absent, -⟩ | ⟨member, v, after, isFound, made⟩
    · exact absurd finds.2 absent
    · have named := (interned.names (fun _ => le_rfl) (.inr made : Gives owns malloc rt v .string _
        after) fun _ n small isDecimal => by
          obtain ⟨i, isName⟩ := mem_narrowAtoms.mp member
          obtain ⟨p, str, reads, isType, isString⟩ := narrowAtom_eq_some.mp isName
          obtain ⟨isPlace, isStr⟩ := read_eq_some.mp reads
          exact interned.numbers small (text_eq_some.mpr ⟨p, _, _, isPlace,
            (content_eq_some.mpr ⟨str, isStr, rfl⟩).trans (by rw [isType]), by
              rw [isString, isDecimal]⟩)).resolve_left fun isNull => made.notNull isNull.1
      refine ⟨v, after, ?_, .inr ⟨_, ?_, named⟩⟩
      · unfold jsNewAtomLen
        rw [if_pos (looks.mpr finds.1), isFound]
        simp [made.notNull]
      · rw [nameUnits, newAtomLen, if_pos finds, Option.map_some]
  · have passes : (if name.isEmpty || !isDigit (name.headD 0) then rt.findAtom name
        else some (jsAtomNull, rt)) = some (jsAtomNull, rt) := by
      split
      · next isLooked =>
          rcases interned.toSound.exists_findAtom name with ⟨-, isNull⟩ | ⟨member, -⟩
          · exact isNull
          · exact absurd ⟨looks.mp isLooked, member⟩ finds
      · rfl
    have isName : nameUnits rt.narrowAtoms name = (newStringLen name).map JSString.units := by
      rw [nameUnits, newAtomLen, if_neg finds]
    rcases interned.exists_jsNewStringLen available name with
      ⟨fails, reason⟩ | ⟨string, p, mid, isString, makes, made⟩
    · refine ⟨jsAtomNull, rt, ?_, .inl ⟨rfl, interned, .refl owns rt, fun units isUnits =>
        .inl (reason.resolve_left fun isNone => ?_)⟩⟩
      · unfold jsNewAtomLen
        rw [passes]
        simp [fails]
      · simp [isName, isNone] at isUnits
    · obtain ⟨v, after, runs, names⟩ := made.interned.exists_jsNewAtomStr (fun _ => rfl)
        (made.array ▸ notHuge) made.fresh
      rw [made.units] at names
      refine ⟨v, after, ?_, ?_⟩
      · unfold jsNewAtomLen
        rw [passes]
        simp [makes, runs]
      rw [isName, isString, Option.map_some]
      rcases names with ⟨isNull, internedNow, keeps, noMemory, noName⟩ | named
      · refine .inl ⟨isNull, internedNow, made.keeps.trans keeps, fun units isUnits =>
          .inr ⟨fun enough => noMemory (enough.congr made.array made.freeIndex), fun w => ?_⟩⟩
        rw [← made.atomName]
        exact Option.some_inj.mp isUnits ▸ noName (by decide) w
      · exact .inr ⟨_, rfl, named.interned, made.keeps.trans named.keeps, named.name, named.notNull⟩

/-- A number has the atom of its decimal digits. -/
theorem exists_jsNewAtomUInt32 (interned : Interned owns rt) {n : Nat} (small : n < 2 ^ 32)
    (notHuge : rt.atomArray.length * 3 < 2 ^ 31) (available : Available malloc rt) :
    ∃ v after, rt.jsNewAtomUInt32 n malloc = some (v, after) ∧
      ((v = jsAtomNull ∧ Interned owns after ∧ Keeps owns rt after ∧
          (malloc.string = none ∨ ¬Suffices malloc rt ∧
            ∀ w, rt.atomName w ≠ some (.string, decimal n))) ∨
        Named owns rt v .string (decimal n) after) := by
  unfold jsNewAtomUInt32
  by_cases isTagged : n ≤ jsAtomMaxInt
  · exact ⟨_, _, if_pos isTagged, .inr (interned.number isTagged)⟩
  rw [if_neg isTagged]
  rcases interned.exists_jsNewStringLen available (printUInt n) with
    ⟨fails, reason⟩ | ⟨string, p, mid, isString, makes, made⟩
  · rw [newStringLen_printUInt small] at reason
    exact ⟨jsAtomNull, rt, by rw [fails], .inl ⟨rfl, interned, .refl owns rt,
      .inl (reason.resolve_left (Option.some_ne_none _))⟩⟩
  · obtain rfl := Option.some_inj.mp ((newStringLen_printUInt small).symm.trans isString)
    have units : mid.unitsOf (some p) = decimal n := made.units
    obtain ⟨v, after, runs, names⟩ := made.interned.exists_newAtom .string (some p)
      (fun ref => (by simp [valueRefs] : _ = owns ref + (valueRefs (some p)).count ref))
      (made.array ▸ notHuge) made.fresh (by simp) fun _ m smallM isOther => by
        obtain rfl := decimal_injective (units.symm.trans isOther)
        exact isTagged smallM
    rw [units] at names
    refine ⟨v, after, by rw [makes]; exact runs, ?_⟩
    rcases names with ⟨isNull, internedNow, keeps, noMemory, noName⟩ | named
    · refine .inl ⟨isNull, internedNow, made.keeps.trans (keeps.mono fun _ => le_rfl), .inr
        ⟨fun enough => noMemory (enough.congr made.array made.freeIndex), fun w => ?_⟩⟩
      rw [← made.atomName]
      exact noName (by decide) w
    · exact .inr ⟨named.interned, made.keeps.trans named.keeps, named.name, named.notNull⟩

/-! ## Atoms as strings -/

/-- An atom is an array index exactly when its name is one. -/
theorem jsAtomIsArrayIndex_eq (interned : Interned owns rt) (has : 0 < owns (.atom v)) :
    ∃ index, rt.jsAtomIsArrayIndex v = some index ∧
      ∀ n, index = some n ↔ n < 2 ^ 32 - 1 ∧ rt.atomName v = some (.string, decimal n) := by
  by_cases isTagged : atomIsTaggedInt v = true
  · refine ⟨some (atomToUInt32 v), by simp [jsAtomIsArrayIndex, isTagged], fun n => ?_⟩
    have small := atomToUInt32_le v
    have max : jsAtomMaxInt = 2 ^ 31 - 1 := rfl
    rw [atomName, if_pos isTagged, Option.some_inj, Option.some_inj, Prod.mk.injEq,
      decimal_injective.eq_iff]
    constructor
    · rintro rfl
      exact ⟨by omega, rfl, rfl⟩
    · exact fun same => same.2.2
  · obtain ⟨type, units, isName⟩ := interned.exists_atomName has
    obtain ⟨p, str, reads, isType, rfl⟩ := exists_read isTagged isName
    by_cases isString : type = .string
    · refine ⟨(isNumString str.string).filter (· ≠ 2 ^ 32 - 1), by
        simp [jsAtomIsArrayIndex, isTagged, reads, isType, isString], fun n => ?_⟩
      rw [isName, isString, Option.some_inj, Prod.mk.injEq, Option.filter_eq_some_iff,
        isNumString_eq_some]
      simp only [true_and, decide_eq_true_eq]
      constructor
      · rintro ⟨⟨inRange, same⟩, notLast⟩
        exact ⟨by omega, same⟩
      · rintro ⟨inRange, same⟩
        exact ⟨⟨by omega, same⟩, by omega⟩
    · refine ⟨none, by simp [jsAtomIsArrayIndex, isTagged, reads, isType, isString], fun n => ?_⟩
      simp [isName, isString]

/-- The string that an atom is converted to has the chars of its name; the string of a
tagged number is new. -/
theorem exists_jsAtomToString (interned : Interned owns rt)
    (isName : rt.atomName v = some (type, units)) (available : Available malloc rt) :
    (atomIsTaggedInt v = true ∧ rt.jsAtomToString v malloc = some (none, rt) ∧
      malloc.string = none) ∨
    ∃ p after, rt.jsAtomToString v malloc = some (some p, after) ∧
      Interned (fun ref => owns ref + [AtomRef.value p].count ref) after ∧ Keeps owns rt after ∧
        after.unitsOf (some p) = units := by
  by_cases isTagged : atomIsTaggedInt v = true
  · have small := atomToUInt32_le v
    have max : jsAtomMaxInt = 2 ^ 31 - 1 := rfl
    have makeable := newStringLen_printUInt (by omega : atomToUInt32 v < 2 ^ 32)
    rw [atomName, if_pos isTagged, Option.some_inj, Prod.mk.injEq] at isName
    obtain ⟨-, rfl⟩ := isName
    rcases interned.exists_jsNewStringLen available (printUInt (atomToUInt32 v)) with
      ⟨fails, reason⟩ | ⟨string, p, after, isString, makes, made⟩
    · rw [makeable] at reason
      exact .inl ⟨isTagged, by simp [jsAtomToString, isTagged, fails],
        reason.resolve_left (Option.some_ne_none _)⟩
    · obtain rfl := Option.some_inj.mp (makeable.symm.trans isString)
      exact .inr ⟨p, after, by simp [jsAtomToString, isTagged, makes], made.interned, made.keeps,
        made.units⟩
  · obtain ⟨p, str, reads, isType, rfl⟩ := exists_read isTagged isName
    -- symbols without a description give the atom of the empty string
    obtain ⟨q, held, chosen, isContent, sameUnits⟩ : ∃ q held,
        (if str.atomType ≠ some .string && str.string = .str16 [] then
          (rt.read jsAtomEmptyString).map Prod.fst else some p) = some q ∧
        rt.content q = some held ∧ held.2.1.units = str.string.units := by
      split
      · next isEmpty =>
          simp only [Bool.and_eq_true, decide_eq_true_eq] at isEmpty
          obtain ⟨q, count, string, isPlace, isContent, noUnits⟩ :=
            text_eq_some.mp interned.emptyString
          obtain ⟨other, isOther, -⟩ := content_eq_some.mp isContent
          exact ⟨q, _, by simp [read_eq_some.mpr ⟨isPlace, isOther⟩], isContent, by
            rw [noUnits, isEmpty.2]; rfl⟩
      · exact ⟨p, _, rfl, content_eq_some.mpr ⟨str, (read_eq_some.mp reads).2, rfl⟩, rfl⟩
    obtain ⟨after, dups, raised⟩ := interned.toSound.exists_jsDupString isContent fun _ => rfl
    refine .inr ⟨q, after, ?_, interned.raised raised fun v has => interned.range (by
      simpa using has), raised.keeps, ?_⟩
    · unfold jsAtomToString
      rw [if_neg isTagged, reads]
      simp only [chosen, Option.bind_eq_bind, Option.bind_some, dups, Option.pure_def]
    · obtain ⟨count, string, type'⟩ := held
      obtain ⟨count', type'', isThere, -⟩ := raised.keeps.content isContent
        (interned.toSound.needed isContent)
      simpa [unitsOf, isThere] using sameUnits

end Interned

end AtomTable

end Jib.QuickJS
