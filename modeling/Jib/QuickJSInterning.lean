import Jib.QuickJSAtomReferences

/-!
# New atoms

A string becomes the atom that has its chars, or a new one.
-/

namespace Jib.QuickJS

/-! ## Comparing strings -/

theorem memcmp_eq_zero_iff {first second : List UInt16} (same : first.length = second.length) :
    memcmp second.length first second = some 0 ↔ first = second := by
  induction second generalizing first with
  | nil => simpa [memcmp] using same
  | cons c second ih =>
      cases first with
      | nil => simp at same
      | cons c' first =>
          have rest := ih (Nat.succ_inj.mp same)
          by_cases isSame : c' = c
          · subst isSame
            simpa [memcmp] using rest
          · have apart : (c'.toNat : Int) - c.toNat ≠ 0 := by
              intro zero
              exact isSame (UInt16.toNat_inj.mp (by omega))
            simp [memcmp, apart, isSame]

/-- The hash of a string is that of its chars, whatever their size. -/
theorem hashString_eq (string : JSString) (h : UInt32) :
    hashString string h = hashString16 string.units h := by
  cases string with
  | str8 chars =>
      simp only [hashString, hashString8, hashString16, JSString.units, List.foldl_map]
      congr
  | str16 chars => rfl

theorem atomHashOf_congr {first second : JSString} (same : first.units = second.units)
    (type : AtomType) : atomHashOf first type = atomHashOf second type := by
  rw [atomHashOf, atomHashOf, hashString_eq, hashString_eq, same]

namespace AtomTable

variable {rt after : AtomTable} {i : JSAtom} {p : Address} {str : JSAtomStruct}
  {owns left gained : AtomRef → Nat} {type : AtomType} {string : JSString}

theorem isAtomOf_iff (h : Nat) (entry : Address × JSAtomStruct) :
    isAtomOf h type string entry = true ↔ entry.2.hash = h ∧ entry.2.atomType = some type ∧
      entry.2.string.units = string.units := by
  simp only [isAtomOf, Bool.and_eq_true, decide_eq_true_eq, and_assoc]
  refine and_congr_right fun _ => and_congr_right fun _ => ?_
  constructor
  · rintro ⟨sameLength, same⟩
    exact (memcmp_eq_zero_iff sameLength).mp same
  · intro same
    exact ⟨congrArg List.length same, (memcmp_eq_zero_iff (congrArg List.length same)).mpr same⟩

/-- The loop of `__JS_NewAtom` finds the atom with a text if there is one. -/
theorem Formed.find_text (formed : rt.Formed) (string : JSString) (notSymbol : type ≠ .symbol) :
    (rt.find (fun _ => isAtomOf (atomHashOf string type) type string) (atomHashOf string type) =
        some none ∧ ∀ i, rt.text i ≠ some (type, string.units)) ∨
    ∃ before i p str, rt.find (fun _ => isAtomOf (atomHashOf string type) type string)
        (atomHashOf string type) = some (some (before, i, p, str)) ∧
      rt.read i = some (p, str) ∧ rt.text i = some (type, string.units) := by
  rcases formed.find_eq (fun _ => isAtomOf (atomHashOf string type) type string)
    (atomHashOf string type) with ⟨ends, nowhere⟩ | ⟨before, i, ⟨p, str⟩, finds, -, reads, isFound⟩
  · refine .inl ⟨ends, fun i isText => ?_⟩
    obtain ⟨p, count, held, isPlace, isContent, sameUnits⟩ := text_eq_some.mp isText
    obtain ⟨str, isStr, isHeld⟩ := content_eq_some.mp isContent
    obtain ⟨-, rfl, isType⟩ := Prod.mk.inj isHeld |>.imp_right Prod.mk.inj
    have reads := read_eq_some.mpr ⟨isPlace, isStr⟩
    obtain ⟨other, type', isOther, otherType, -, -, hash⟩ := formed.placed isPlace
    obtain rfl := Option.some_inj.mp (isStr.symm.trans isOther)
    obtain rfl := Option.some_inj.mp (isType.symm.trans otherType)
    have sameHash : str.hash = atomHashOf string type :=
      (hash notSymbol).trans (atomHashOf_congr sameUnits type)
    have missed := nowhere i (p, str) ⟨p, str, type, reads, isType, notSymbol⟩ reads
      (congrArg rt.bucket sameHash)
    rw [(isAtomOf_iff _ _).mpr ⟨sameHash, isType, sameUnits⟩] at missed
    cases missed
  · obtain ⟨-, isType, sameUnits⟩ := (isAtomOf_iff _ _).mp isFound
    obtain ⟨isPlace, isStr⟩ := read_eq_some.mp reads
    exact .inr ⟨before, i, p, str, finds, reads, text_eq_some.mpr
      ⟨p, _, _, isPlace, content_eq_some.mpr ⟨str, isStr, by rw [isType]⟩, sameUnits⟩⟩

/-! ## New structures -/

/-- The references to a string that may be `NULL`. -/
def valueRefs (str : Option Address) : List AtomRef :=
  str.toList.map .value

/-- The memory for an atom is free. -/
structure Fresh (malloc : Mallocs) (rt : AtomTable) : Prop where
  nullAtom : ∀ p ∈ malloc.nullAtom, rt.strings p = none
  atom : ∀ p ∈ malloc.atom, rt.strings p = none
  apart : ∀ p ∈ malloc.nullAtom, p ∉ malloc.atom

/-- There is memory for an atom. -/
structure Suffices (malloc : Mallocs) (rt : AtomTable) : Prop where
  atom : malloc.atom ≠ none
  room : rt.atomFreeIndex = 0 → Extensible malloc rt

theorem Suffices.congr {malloc : Mallocs} (enough : Suffices malloc rt)
    (array : after.atomArray = rt.atomArray) (freeIndex : after.atomFreeIndex = rt.atomFreeIndex) :
    Suffices malloc after where
  atom := enough.atom
  room isFull := by
    have more := enough.room (freeIndex ▸ isFull)
    exact ⟨array ▸ more.fits, more.array, array ▸ more.nullAtom⟩

theorem content_eq_none : rt.content p = none ↔ rt.strings p = none :=
  Option.map_eq_none_iff

/-- More places make no difference to references. -/
theorem Sound.grow {malloc : Mallocs} (sound : Sound owns rt) (grown : Grown malloc rt after)
    (fresh : ∀ p ∈ malloc.nullAtom, rt.strings p = none) : Raised owns owns rt after := by
  rcases grown.effect with ⟨places, strings⟩ | ⟨empty, p, isNull, places, strings⟩
  · have contents : after.content = rt.content := by
      funext q
      rw [content, content, strings]
    refine ⟨⟨grown.formed, fun isThere => ?_, fun has => ?_, fun has => ?_⟩,
      ⟨fun isPlace _ => places ▸ isPlace, fun isThere _ => ?_⟩, ?_⟩
    · rw [places]
      exact sound.due (contents ▸ isThere)
    · rw [contents]
      exact sound.inUse has
    · rw [places]
      exact sound.held has
    · exact ⟨_, _, contents ▸ isThere, fun _ => rfl⟩
    · exact Old.noNew ⟨fun isPlace => places ▸ isPlace, fun isThere => ⟨_, contents ▸ isThere⟩⟩
  · have noContent : rt.content p = none := content_eq_none.mpr (fresh p isNull)
    have contents : after.content =
        Function.update rt.content p (some (1, .str8 [], some .symbol)) := by
      have isAfter : after.content = (rt.write p (some nullAtom)).content := by
        funext q
        rw [content, content, strings, strings_write]
      exact isAfter.trans (content_write rt p (some nullAtom))
    have noPlace : ∀ j, rt.place j = none := by simp [place, empty]
    have nothing : owns (.value p) = 0 := by
      by_contra has
      obtain ⟨held, isContent⟩ := sound.inUse (Nat.pos_of_ne_zero has)
      simp [noContent] at isContent
    have isFirst : ∀ {j q}, after.place j = some q → j = 0 ∧ q = p := by
      intro j q isPlace
      rw [places] at isPlace
      by_cases isZero : j = 0
      · subst isZero
        rw [Function.update_self, Option.some_inj] at isPlace
        exact ⟨rfl, isPlace.symm⟩
      · simp [isZero, noPlace] at isPlace
    have isNow : after.place 0 = some p := by rw [places, Function.update_self]
    refine ⟨⟨grown.formed, fun {q count string type} isThere => ?_, fun {q} has => ?_,
      fun {j} has notNumber => ?_⟩, ⟨fun {j q} isPlace _ => ?_,
        fun {q count string type} isThere needed => ?_⟩, ?_⟩
    · by_cases same : q = p
      · subst same
        rw [contents, Function.update_self, Option.some_inj] at isThere
        obtain ⟨rfl, rfl, rfl⟩ := isThere
        refine ⟨fun j isPlace => ?_, fun notPlaced => absurd isNow (notPlaced 0), Int.one_pos⟩
        obtain ⟨rfl, -⟩ := isFirst isPlace
        simp [nothing, counted, atomIsConst, jsAtomEnd_eq]
      · rw [contents, Function.update_of_ne same] at isThere
        have before := sound.due isThere
        refine ⟨fun j isPlace => absurd (isFirst isPlace).2 same, fun _ => ?_, before.positive⟩
        exact before.string fun j => by simp [noPlace]
    · have same : q ≠ p := by
        rintro rfl
        omega
      rw [contents, Function.update_of_ne same]
      exact sound.inUse has
    · obtain ⟨q, isPlace⟩ := sound.held has notNumber
      simp [noPlace] at isPlace
    · simp [noPlace] at isPlace
    · have same : q ≠ p := by
        rintro rfl
        simp [noContent] at isThere
      exact ⟨_, _, by rw [contents, Function.update_of_ne same, isThere], fun _ => rfl⟩
    · intro j type units notSymbol isText
      obtain ⟨q, count, string, isPlace, isThere, -⟩ := text_eq_some.mp isText
      obtain ⟨-, rfl⟩ := isFirst isPlace
      rw [contents, Function.update_self, Option.some_inj] at isThere
      obtain ⟨-, -, isType⟩ := Prod.mk.inj isThere |>.imp_right Prod.mk.inj
      exact absurd (Option.some_inj.mp isType).symm notSymbol

/-- The chars of a string that may be `NULL`. -/
def unitsOf (rt : AtomTable) (str : Option Address) : List UInt16 :=
  ((str.bind rt.content).map (·.2.1.units)).getD []

/-- A string that no atom has, with a reference for the atom that it is to become. -/
structure Readied (left : AtomRef → Nat) (rt : AtomTable) (p : Address) (units : List UInt16)
    (after : AtomTable) : Prop where
  sound : Sound (fun ref => left ref + [AtomRef.value p].count ref) after
  keeps : Keeps left rt after
  noNew : NoNew rt after
  notFull : rt.atomFreeIndex ≠ 0 → after.atomFreeIndex ≠ 0
  isPlain : ∃ count string, after.content p = some (count, string, none) ∧ string.units = units

theorem content_jsAllocString (rt : AtomTable) (p : Address) (string : JSString) :
    (rt.jsAllocString p string).content p = some (1, string, none) := by
  rw [AtomTable.jsAllocString, content_write, Function.update_self]
  rfl

theorem Sound.exists_structFor {str : Option Address} {malloc : Mallocs} (sound : Sound owns rt)
    (takes : ∀ ref, owns ref = left ref + (valueRefs str).count ref)
    (fresh : ∀ p ∈ malloc.atom, rt.strings p = none) :
    ∃ found, rt.structFor str malloc = some found ∧ (found = none → malloc.atom = none) ∧
      ∀ p after, found = some (p, after) → Readied left rt p (rt.unitsOf str) after := by
  cases str with
  | none =>
      cases isAtom : malloc.atom with
      | none => exact ⟨none, by simp [structFor, isAtom], fun _ => rfl, by simp⟩
      | some q =>
          refine ⟨some (q, rt.jsAllocString q (.str16 [])), by
            simp [structFor, isAtom, AtomTable.jsAllocString], by simp, ?_⟩
          rintro _ _ ⟨⟩
          have raised : Raised owns (fun ref => left ref + [AtomRef.value q].count ref) rt _ :=
            sound.allocString (.str16 []) (fresh q isAtom) fun ref => by simp [takes, valueRefs]
          exact ⟨raised.sound, raised.keeps.mono fun ref => by simp [takes], raised.noNew, id, 1, _,
            content_jsAllocString rt q _, rfl⟩
  | some s =>
      have has : 0 < owns (.value s) := by simp [takes, valueRefs]
      obtain ⟨held, isStr, -⟩ := sound.exists_string has
      have isContent : rt.content s = some (held.refCount, held.string, held.atomType) :=
        content_eq_some.mpr ⟨held, isStr, rfl⟩
      have isUnits : rt.unitsOf (some s) = held.string.units := by simp [unitsOf, isContent]
      cases isType : held.atomType with
      | none =>
          refine ⟨some (s, rt), by simp [structFor, isStr, isType], by simp, ?_⟩
          rintro _ _ ⟨⟩
          have same : owns = fun ref => left ref + [AtomRef.value s].count ref := by
            funext ref
            simp [takes, valueRefs]
          exact ⟨same ▸ sound, .refl left rt, fun _ _ _ _ isText => isText, id, held.refCount,
            held.string, by rw [isContent, isType], isUnits.symm⟩
      | some type =>
          cases isAtom : malloc.atom with
          | none =>
              exact ⟨none, by simp [structFor, isStr, isType, isAtom], fun _ => rfl, by simp⟩
          | some q =>
              have raised : Raised owns (fun ref => left ref + [AtomRef.value q].count ref +
                  [AtomRef.value s].count ref) rt _ :=
                sound.allocString held.string (fresh q isAtom) fun ref => by
                  simp [takes, valueRefs]
                  omega
              obtain ⟨after, frees, lowered⟩ := raised.sound.exists_jsFreeString fun _ => rfl
              refine ⟨some (q, after), ?_, by simp, ?_⟩
              · rw [AtomTable.jsAllocString] at frees
                simp [structFor, isStr, isType, isAtom, frees]
              · rintro _ _ ⟨⟩
                obtain ⟨count, type', isThere, -⟩ := lowered.keeps.content
                  (content_jsAllocString rt q held.string) (.inl (by simp))
                obtain ⟨before, isBefore⟩ := lowered.old.content isThere
                rw [content_jsAllocString] at isBefore
                obtain ⟨-, -, rfl⟩ := Prod.mk.inj (Option.some_inj.mp isBefore)
                  |>.imp_right Prod.mk.inj
                refine ⟨lowered.sound, (raised.keeps.mono fun ref => ?_).trans
                  (lowered.keeps.mono fun ref => ?_), fun i type units notSymbol isText => ?_,
                  lowered.notFull, count, _, isThere, isUnits.symm⟩
                · simp [takes, valueRefs]
                · simp
                · exact raised.noNew i type units notSymbol
                    (lowered.old.noNew i type units notSymbol isText)

/-- A new reference to an atom with a text. -/
structure Made (left : AtomRef → Nat) (rt : AtomTable) (i : JSAtom) (type : AtomType)
    (units : List UInt16) (after : AtomTable) : Prop where
  sound : Sound (fun ref => left ref + [AtomRef.atom i].count ref) after
  keeps : Keeps left rt after
  text : after.text i = some (type, units)
  notNull : i ≠ jsAtomNull
  notNumber : i < jsAtomTagInt
  others : ∀ j type units, j ≠ i → type ≠ .symbol → after.text j = some (type, units) →
    rt.text j = some (type, units)

/-- An atom, or `JS_ATOM_NULL` where it is to be made and memory does not suffice. -/
def Gives (left : AtomRef → Nat) (malloc : Mallocs) (rt : AtomTable) (i : JSAtom)
    (type : AtomType) (units : List UInt16) (after : AtomTable) : Prop :=
  (i = jsAtomNull ∧ Raised left left rt after ∧ ¬Suffices malloc rt ∧
    (type ≠ .symbol → ∀ j, rt.text j ≠ some (type, units))) ∨ Made left rt i type units after

theorem Structured.lt_tagInt (structured : rt.Structured) (inside : i < rt.atomArray.length) :
    i < jsAtomTagInt := by
  have small := structured.small
  have max : jsAtomMax < jsAtomTagInt := by decide
  exact (inside.trans_le small).trans max

/-- A reference to a string becomes one to its new atom. -/
theorem Sound.enter {count : Int}
    (sound : Sound (fun ref => left ref + [AtomRef.value p].count ref) rt) (formed : after.Formed)
    (noPlace : rt.place i = none) (notPlaced : ∀ i, rt.place i ≠ some p)
    (isContent : rt.content p = some (count, string, none))
    (places : after.place = Function.update rt.place i (some p))
    (contents : after.content = Function.update rt.content p (some (count, string, some type)))
    (notNumber : i < jsAtomTagInt) :
    Sound (fun ref => left ref + [AtomRef.atom i].count ref) after where
  toFormed := formed
  due {q count' string' type'} isThere := by
    rw [contents] at isThere
    have othersCounted : ∀ j, j ≠ i →
        counted (fun ref => left ref + [AtomRef.atom i].count ref) j =
          counted (fun ref => left ref + [AtomRef.value p].count ref) j := by
      intro j isOther
      simp [counted, Ne.symm isOther]
    by_cases same : q = p
    · subst same
      rw [Function.update_self, Option.some_inj] at isThere
      obtain ⟨rfl, rfl, rfl⟩ := isThere
      have before := sound.due isContent
      have total := before.string notPlaced
      have isNow : after.place i = some q := by rw [places, Function.update_self]
      refine ⟨fun j isPlace => ?_, fun notNow => absurd isNow (notNow i), before.positive⟩
      obtain rfl := formed.apart isPlace isNow
      have none_ : left (.atom j) = 0 := by
        by_contra has
        have hasRef : 0 < left (.atom j) + [AtomRef.value q].count (.atom j) := by
          simpa using Nat.pos_of_ne_zero has
        obtain ⟨_, isPlaced⟩ := sound.held hasRef notNumber
        simp [noPlace] at isPlaced
      rw [total]
      cases isConst : atomIsConst j <;> simp [counted, isConst, none_]
    · rw [Function.update_of_ne same] at isThere
      have before := sound.due isThere
      have sameCount : [AtomRef.atom i].count (.value q) = [AtomRef.value p].count (.value q) := by
        simp [Ne.symm same]
      have apart : ∀ j, after.place j = some q → j ≠ i ∧ rt.place j = some q := by
        intro j isPlace
        rw [places] at isPlace
        by_cases isI : j = i
        · subst isI
          rw [Function.update_self, Option.some_inj] at isPlace
          exact absurd isPlace.symm same
        · rw [Function.update_of_ne isI] at isPlace
          exact ⟨isI, isPlace⟩
      refine ⟨fun j isPlace => ?_, fun notNow => ?_, before.positive⟩
      · obtain ⟨isOther, isBefore⟩ := apart j isPlace
        rw [othersCounted j isOther, sameCount]
        exact before.atom j isBefore
      · rw [sameCount]
        refine before.string fun j isPlace => notNow j ?_
        rw [places, Function.update_of_ne ?_, isPlace]
        rintro rfl
        simp [noPlace] at isPlace
  inUse {q} has := by
    rw [contents]
    by_cases same : q = p
    · exact ⟨_, by rw [same, Function.update_self]⟩
    · rw [Function.update_of_ne same]
      refine sound.inUse ?_
      simpa [Ne.symm same] using has
  held {j} has isAtom := by
    rw [places]
    by_cases same : j = i
    · exact ⟨p, by rw [same, Function.update_self]⟩
    · rw [Function.update_of_ne same]
      refine sound.held ?_ isAtom
      simpa [Ne.symm same] using has

/-- A structure that has been readied is entered. -/
theorem Readied.exists_enter {units : List UInt16} {h : Nat}
    (readied : Readied left rt p units after)
    (notFull : after.atomFreeIndex ≠ 0) (notPrivate : type ≠ .privateSymbol)
    (hash : type ≠ .symbol → ∃ string : JSString, string.units = units ∧
      h = atomHashOf string type)
    (unique : type ≠ .symbol → ∀ i, rt.text i ≠ some (type, units)) (malloc : Mallocs) :
    ∃ last, after.enter p h type malloc = some (after.atomFreeIndex, last) ∧
      Made left rt after.atomFreeIndex type units last ∧
        last.atomArray = after.atomArray.set after.atomFreeIndex (.atom p) ∧
          after.nextFree after.atomFreeIndex = some last.atomFreeIndex ∧
            ∀ q, q ≠ p → last.content q = after.content q := by
  obtain ⟨count, string, isContent, isUnits⟩ := readied.isPlain
  obtain ⟨str, isStr, isHeld⟩ := content_eq_some.mp isContent
  obtain ⟨rfl, rfl, isPlain⟩ := Prod.mk.inj isHeld |>.imp_right Prod.mk.inj
  have sound := readied.sound
  have notPlaced : ∀ i, after.place i ≠ some p := by
    intro i isPlace
    obtain ⟨_, _, _, isThere⟩ := sound.exists_content isPlace
    simp [isContent] at isThere
  have noText : type ≠ .symbol → ∀ i, after.text i ≠ some (type, str.string.units) :=
    fun notSymbol i isText => unique notSymbol i
      (isUnits ▸ readied.noNew i type _ notSymbol isText)
  have sameHash : type ≠ .symbol → h = atomHashOf str.string type := by
    intro notSymbol
    obtain ⟨other, sameUnits, isHash⟩ := hash notSymbol
    exact isHash.trans (atomHashOf_congr (sameUnits.trans isUnits.symm) type)
  obtain ⟨last, enters, formed, places, contents, array, isFree⟩ :=
    sound.toFormed.exists_enter isStr notPlaced notFull notPrivate sameHash
    (fun notSymbol j q other reads otherType sameUnits => by
      obtain ⟨isPlace, isOther⟩ := read_eq_some.mp reads
      exact noText notSymbol j (text_eq_some.mpr ⟨q, other.refCount, other.string, isPlace,
        content_eq_some.mpr ⟨other, isOther, by rw [otherType]⟩, sameUnits⟩)) malloc
  refine ⟨last, enters, ?_, array, nextFree_eq_some.mpr isFree, fun q isOther => by
    rw [contents, Function.update_of_ne isOther]⟩
  clear array
  generalize after.atomFreeIndex = i at *
  have noPlace : after.place i = none := by
    rw [place, isFree]
    rfl
  have inside := (List.getElem?_eq_some_iff.mp isFree).1
  have notNumber := sound.lt_tagInt inside
  have isNow : last.place i = some p := by rw [places, Function.update_self]
  have others : ∀ {j q}, last.place j = some q →
      j = i ∧ q = p ∨ j ≠ i ∧ after.place j = some q := by
    intro j q isPlace
    rw [places] at isPlace
    by_cases same : j = i
    · subst same
      rw [Function.update_self, Option.some_inj] at isPlace
      exact .inl ⟨rfl, isPlace.symm⟩
    · rw [Function.update_of_ne same] at isPlace
      exact .inr ⟨same, isPlace⟩
  refine ⟨?_, ?_, ?_, notFull, notNumber, ?_⟩
  · exact sound.enter formed noPlace notPlaced isContent places contents notNumber
  · refine readied.keeps.trans
      ⟨fun {j q} isPlace _ => ?_, fun {q count string type'} isThere _ => ?_⟩
    · rw [places, Function.update_of_ne ?_, isPlace]
      rintro rfl
      simp [noPlace] at isPlace
    · rw [contents]
      by_cases same : q = p
      · subst same
        obtain ⟨-, rfl, rfl⟩ := Prod.mk.inj (Option.some_inj.mp (isContent.symm.trans isThere))
          |>.imp_right Prod.mk.inj
        exact ⟨_, _, Function.update_self _ _ _, by simp⟩
      · exact ⟨_, _, by rw [Function.update_of_ne same, isThere], fun _ => rfl⟩
  · exact text_eq_some.mpr ⟨p, str.refCount, str.string, isNow, by
      rw [contents, Function.update_self], isUnits⟩
  · intro j type' units' isOther notSymbol isText
    obtain ⟨q, count, string, isPlace, isThere, rfl⟩ := text_eq_some.mp isText
    rcases others isPlace with ⟨rfl, -⟩ | ⟨-, before⟩
    · exact absurd rfl isOther
    · have same : q ≠ p := by
        rintro rfl
        exact notPlaced j before
      rw [contents, Function.update_of_ne same] at isThere
      exact readied.noNew j type' _ notSymbol
        (text_eq_some.mpr ⟨q, count, string, before, isThere, rfl⟩)

theorem Raised.unitsOf_eq {str : Option Address} (sound : Sound owns rt)
    (raised : Raised owns gained rt after) (has : ∀ p ∈ str, 0 < owns (.value p)) :
    after.unitsOf str = rt.unitsOf str := by
  cases str with
  | none => rfl
  | some p =>
      obtain ⟨⟨count, string, type⟩, isContent⟩ := sound.inUse (has p rfl)
      obtain ⟨count', type', isThere, -⟩ := raised.keeps.content isContent (.inl (has p rfl))
      simp [unitsOf, isContent, isThere]

theorem Sound.exists_fail {str : Option Address} (sound : Sound owns rt)
    (takes : ∀ ref, owns ref = left ref + (valueRefs str).count ref) :
    ∃ after, rt.fail str = some (jsAtomNull, after) ∧ Raised left left rt after := by
  cases str with
  | none =>
      obtain rfl : owns = left := funext fun ref => by simp [takes, valueRefs]
      exact ⟨rt, rfl, sound, .refl owns rt, fun _ _ _ _ isText => isText⟩
  | some p =>
      obtain ⟨after, frees, lowered⟩ :=
        (show Sound owns rt from sound).exists_jsFreeString fun ref => by
          simpa [valueRefs] using takes ref
      exact ⟨after, by simp [AtomTable.fail, frees], lowered.sound, lowered.keeps,
        lowered.old.noNew⟩

/-- There is a free place, or memory does not suffice. -/
theorem Sound.exists_room (sound : Sound owns rt) (malloc : Mallocs)
    (notHuge : rt.atomArray.length * 3 < 2 ^ 31) (fresh : Fresh malloc rt) :
    ∃ grown, rt.room malloc = some grown ∧ (grown = none → ¬Suffices malloc rt) ∧
      ∀ mid ∈ grown, Raised owns owns rt mid ∧ mid.atomFreeIndex ≠ 0 ∧
        (∀ p ∈ malloc.atom, mid.strings p = none) ∧
          (mid = rt ∨ rt.atomFreeIndex = 0 ∧ Grown malloc rt mid) := by
  by_cases isFull : rt.atomFreeIndex = 0
  · obtain ⟨grown, grows, fails, isGrown⟩ := sound.toFormed.exists_grow isFull notHuge malloc
    refine ⟨grown, by rw [room, if_pos isFull, grows], fun isNone suffices_ =>
      fails isNone (suffices_.room isFull), fun mid isMid => ?_⟩
    have grownMid := isGrown mid isMid
    have notFull : mid.atomFreeIndex ≠ 0 := by
      rw [grownMid.freeIndex]
      exact Nat.ne_of_gt (Nat.le_max_left 1 _)
    refine ⟨sound.grow grownMid fresh.nullAtom, notFull, fun p isAtom => ?_,
      .inr ⟨isFull, grownMid⟩⟩
    rcases grownMid.effect with ⟨-, strings⟩ | ⟨-, q, isNull, -, strings⟩
    · rw [strings]
      exact fresh.atom p isAtom
    · have same : p ≠ q := by
        rintro rfl
        exact fresh.apart p isNull isAtom
      rw [strings, Function.update_of_ne same]
      exact fresh.atom p isAtom
  · refine ⟨some rt, by rw [room, if_neg isFull], by simp, ?_⟩
    rintro _ ⟨⟩
    exact ⟨⟨sound, .refl owns rt, fun _ _ _ _ isText => isText⟩, isFull, fresh.atom, .inl rfl⟩

/-- What `__JS_NewAtom` does where there is no such atom. -/
theorem Sound.exists_makeAtom {h : Nat} {malloc : Mallocs} (sound : Sound owns rt)
    (type : AtomType) (str : Option Address)
    (takes : ∀ ref, owns ref = left ref + (valueRefs str).count ref)
    (notHuge : rt.atomArray.length * 3 < 2 ^ 31) (fresh : Fresh malloc rt)
    (notPrivate : type ≠ .privateSymbol)
    (hash : type ≠ .symbol → ∃ string : JSString, string.units = rt.unitsOf str ∧
      h = atomHashOf string type)
    (unique : type ≠ .symbol → ∀ i, rt.text i ≠ some (type, rt.unitsOf str)) :
    ∃ i after, rt.makeAtom str h type malloc = some (i, after) ∧
      Gives left malloc rt i type (rt.unitsOf str) after := by
  have fewer : ∀ ref, left ref ≤ owns ref := fun ref => by simp [takes]
  have has : ∀ p ∈ str, 0 < owns (.value p) := by
    rintro p rfl
    simp [takes, valueRefs]
  obtain ⟨grown, grows, noRoom, isGrown⟩ := sound.exists_room malloc notHuge fresh
  cases grown with
  | none =>
      obtain ⟨after, fails, raised⟩ := sound.exists_fail takes
      exact ⟨jsAtomNull, after, by simp [makeAtom, grows, fails], .inl ⟨rfl, raised,
        noRoom rfl, unique⟩⟩
  | some mid =>
      obtain ⟨raised, notFull, free, -⟩ := isGrown mid rfl
      have sameUnits := raised.unitsOf_eq sound has
      have kept := raised.keeps.mono fewer
      obtain ⟨found, finds, noStruct, isFound⟩ := raised.sound.exists_structFor takes free
      cases found with
      | none =>
          obtain ⟨after, fails, lowered⟩ := raised.sound.exists_fail takes
          refine ⟨jsAtomNull, after, by simp [makeAtom, grows, finds, fails], .inl ⟨rfl,
            ⟨lowered.sound, kept.trans lowered.keeps, fun i type units notSymbol isText => ?_⟩,
            fun suffices_ => suffices_.atom (noStruct rfl), unique⟩⟩
          exact raised.noNew i type units notSymbol (lowered.noNew i type units notSymbol isText)
      | some entry =>
          obtain ⟨p, ready⟩ := entry
          have readied := isFound p ready rfl
          rw [sameUnits] at readied
          obtain ⟨after, enters, made, -⟩ := readied.exists_enter (readied.notFull notFull)
            notPrivate hash (fun notSymbol j isText => unique notSymbol j
              (raised.noNew j type _ notSymbol isText)) malloc
          refine ⟨_, after, by simp [makeAtom, grows, finds, enters], .inr ⟨made.sound,
            kept.trans made.keeps, made.text, made.notNull, made.notNumber,
            fun j type units isOther notSymbol isText => ?_⟩⟩
          exact raised.noNew j type units notSymbol
            (made.others j type units isOther notSymbol isText)

/-! ## Interning -/

theorem Keeps.text {held : AtomType × List UInt16} (keeps : Keeps owns rt after)
    (has : 0 < counted owns i) (isText : rt.text i = some held) : after.text i = some held := by
  obtain ⟨type, units⟩ := held
  obtain ⟨p, count, string, isPlace, isContent, isUnits⟩ := text_eq_some.mp isText
  obtain ⟨count', type', isThere, same⟩ := keeps.content isContent (.inr ⟨i, isPlace, has⟩)
  exact text_eq_some.mpr ⟨p, count', string, keeps.place isPlace has, same rfl ▸ isThere, isUnits⟩

theorem text_write_count (isStr : rt.strings p = some str) (refCount : Int) (i : JSAtom) :
    (rt.write p (some { str with refCount })).text i = rt.text i := by
  rw [text, text, place_write, content_write_count]
  cases isPlace : rt.place i with
  | none => rfl
  | some q =>
      by_cases same : q = p
      · subst same
        simp [content, isStr]
      · simp [same]

theorem Sound.ne_null_of_text {units : List UInt16} (sound : Sound owns rt)
    (isText : rt.text i = some (type, units)) (notSymbol : type ≠ .symbol) : i ≠ jsAtomNull := by
  obtain ⟨p, count, string, isPlace, isContent, -⟩ := text_eq_some.mp isText
  obtain ⟨str, isStr, isHeld⟩ := content_eq_some.mp isContent
  obtain ⟨-, -, isType⟩ := Prod.mk.inj isHeld |>.imp_right Prod.mk.inj
  exact sound.ne_zero_of_hashed ⟨p, str, type, read_eq_some.mpr ⟨isPlace, isStr⟩, isType, notSymbol⟩

theorem Sound.lt_of_text {held : AtomType × List UInt16} (sound : Sound owns rt)
    (isText : rt.text i = some held) : i < jsAtomTagInt := by
  obtain ⟨type, units⟩ := held
  obtain ⟨p, count, string, isPlace, -⟩ := text_eq_some.mp isText
  exact sound.lt_tagInt (lt_of_place isPlace)

/-- A reference to the string of an atom becomes one to the atom. -/
theorem Sound.exists_own (sound : Sound owns rt)
    (takes : ∀ ref, owns ref = left ref + [AtomRef.value p].count ref)
    (isStr : rt.strings p = some str) (isType : str.atomType = some type)
    (notSymbol : type ≠ .symbol) : ∃ i, rt.jsGetAtomIndex p = some i ∧
      Made left rt i type str.string.units (if atomIsConst i then
        rt.write p (some { str with refCount := str.refCount - 1 }) else rt) := by
  have takesValue : owns (.value p) = left (.value p) + 1 := by simpa using takes (.value p)
  have isContent : rt.content p = some (str.refCount, str.string, str.atomType) :=
    content_eq_some.mpr ⟨str, isStr, rfl⟩
  obtain ⟨i, isPlace⟩ : ∃ i, rt.place i = some p := by
    by_contra none_
    have isPlain := sound.plain isStr (not_exists.mp none_)
    simp [isType] at isPlain
  have isText : rt.text i = some (type, str.string.units) :=
    text_eq_some.mpr ⟨p, _, _, isPlace, isType ▸ isContent, rfl⟩
  have due := sound.due isContent
  have total := due.atom i isPlace
  have positive := due.positive
  have others : ∀ q, q ≠ p → left (.value q) + [AtomRef.atom i].count (.value q) =
      owns (.value q) := by
    intro q same
    simp [takes, Ne.symm same]
  have otherAtoms : ∀ j, rt.place j ≠ some p → left (.atom j) + [AtomRef.atom i].count (.atom j) =
      owns (.atom j) := by
    intro j notHere
    have same : i ≠ j := by
      rintro rfl
      exact notHere isPlace
    simp [takes, same]
  have notNull := sound.ne_null_of_text isText notSymbol
  have notNumber := sound.lt_of_text isText
  refine ⟨i, sound.jsGetAtomIndex_eq isPlace, ?_⟩
  cases isConst : atomIsConst i with
  | true =>
      have content := content_write_count rt p str (str.refCount - 1)
      rw [counted, if_pos isConst] at total
      refine ⟨sound.recount (sound.write_count isStr _) rfl isContent content
        ⟨fun j isHere => ?_, fun notPlaced => absurd isPlace (notPlaced i), ?_⟩ others otherAtoms,
        keeps_recount rfl isContent content, by rw [if_pos rfl, text_write_count isStr, isText],
        notNull, notNumber, fun j type units _ _ isThere => by
          rwa [if_pos rfl, text_write_count isStr] at isThere⟩
      · obtain rfl := sound.apart isHere isPlace
        simp [counted, isConst]
        omega
      · omega
  | false =>
      rw [counted, if_neg (by simp [isConst])] at total
      refine ⟨sound.recount sound.toFormed rfl isContent (Function.update_eq_self_iff.mpr
        isContent.symm).symm ⟨fun j isHere => ?_, fun notPlaced => absurd isPlace (notPlaced i),
          positive⟩ others otherAtoms, .refl left rt, isText, notNull, notNumber,
        fun _ _ _ _ _ isThere => isThere⟩
      obtain rfl := sound.apart isHere isPlace
      have takesAtom : owns (.atom j) = left (.atom j) := by simp [takes]
      simp [counted, isConst]
      omega

/-- `__JS_NewAtom` gives the atom with the chars of its string, which it makes if there
is none. -/
theorem Sound.exists_internAtom {malloc : Mallocs} (sound : Sound owns rt) (type : AtomType)
    (takes : ∀ ref, owns ref = left ref + [AtomRef.value p].count ref)
    (notHuge : rt.atomArray.length * 3 < 2 ^ 31) (fresh : Fresh malloc rt)
    (notSymbol : type ≠ .symbol) (notPrivate : type ≠ .privateSymbol) :
    ∃ i after, rt.internAtom p type malloc = some (i, after) ∧
      Gives left malloc rt i type (rt.unitsOf (some p)) after := by
  have has : 0 < owns (.value p) := by simp [takes]
  obtain ⟨str, isStr, -⟩ := sound.exists_string has
  have isContent : rt.content p = some (str.refCount, str.string, str.atomType) :=
    content_eq_some.mpr ⟨str, isStr, rfl⟩
  have isUnits : rt.unitsOf (some p) = str.string.units := by simp [unitsOf, isContent]
  rw [isUnits]
  by_cases isOwn : str.atomType = some type
  · obtain ⟨i, isIndex, made⟩ := sound.exists_own takes isStr isOwn notSymbol
    refine ⟨i, _, ?_, .inr made⟩
    cases isConst : atomIsConst i <;> simp [internAtom, isStr, isOwn, isIndex, isConst]
  · rcases sound.toFormed.find_text str.string notSymbol with
      ⟨finds, nowhere⟩ | ⟨before, i, q, held, finds, reads, isText⟩
    · obtain ⟨i, after, makes, gives⟩ := sound.exists_makeAtom type (some p)
        (fun ref => by simpa [valueRefs] using takes ref) notHuge fresh notPrivate
        (fun _ => ⟨str.string, isUnits.symm, rfl⟩) fun _ i isText => nowhere i (isUnits ▸ isText)
      exact ⟨i, after, by simp [internAtom, isStr, isOwn, finds, makes], isUnits ▸ gives⟩
    · have raised : Raised owns (fun ref => owns ref + [AtomRef.atom i].count ref) rt _ :=
        sound.acquire reads fun _ => rfl
      obtain ⟨after, frees, lowered⟩ := raised.sound.exists_jsFreeString (p := p)
        (show ∀ ref, owns ref + [AtomRef.atom i].count ref =
            left ref + [AtomRef.atom i].count ref + [AtomRef.value p].count ref by
          intro ref
          rw [takes]
          omega)
      have fewer : ∀ ref, left ref ≤ owns ref := fun ref => by simp [takes]
      have isMid : (if atomIsConst i then rt
          else rt.write q (some { held with refCount := held.refCount + 1 })).text i = some
            (type, str.string.units) := by
        split
        · exact isText
        · rw [text_write_count (read_eq_some.mp reads).2, isText]
      refine ⟨i, after, ?_, .inr ⟨lowered.sound, (raised.keeps.mono fewer).trans
        (lowered.keeps.mono fun ref => by simp), lowered.keeps.text ?_ isMid,
        sound.ne_null_of_text isText notSymbol, sound.lt_of_text isText,
        fun j type units _ notSymbol isThere => ?_⟩⟩
      · simp [internAtom, isStr, isOwn, finds, frees]
      · unfold counted
        split <;> simp
      · exact raised.noNew j type units notSymbol
          (lowered.old.noNew j type units notSymbol isThere)

end AtomTable

end Jib.QuickJS
