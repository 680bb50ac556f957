import Jib.QuickJSAtomTables

/-!
# References to atoms and strings

A structure counts the references to it as a string value and as an atom; the
atoms that the engine starts with are counted once.  A program that gives up
only references that it has finds every string and every atom it has a reference
to as it was.
-/

namespace Jib.QuickJS

/-- A reference to a string as a value, or to an atom. -/
inductive AtomRef
  | value (p : Address)
  | atom (i : JSAtom)
  deriving DecidableEq

namespace AtomTable

variable {rt after : AtomTable} {i : JSAtom} {p : Address} {str : JSAtomStruct}
  {owns left : AtomRef → Nat}

/-- What counts as references to an atom. -/
def counted (owns : AtomRef → Nat) (i : JSAtom) : Nat :=
  if atomIsConst i then 1 else owns (.atom i)

/-- The count that a structure should have. -/
structure Due (owns : AtomRef → Nat) (place : JSAtom → Option Address) (p : Address)
    (count : Int) : Prop where
  atom : ∀ i, place i = some p → count = owns (.value p) + counted owns i
  string : (∀ i, place i ≠ some p) → count = owns (.value p)
  positive : 0 < count

/-- Counts say how many references there are. -/
structure Sound (owns : AtomRef → Nat) (rt : AtomTable) : Prop extends Formed rt where
  due : ∀ {p count string type}, rt.content p = some (count, string, type) →
    Due owns rt.place p count
  inUse : ∀ {p}, 0 < owns (.value p) → ∃ held, rt.content p = some held
  held : ∀ {i}, 0 < owns (.atom i) → i < jsAtomTagInt → ∃ p, rt.place i = some p

/-- A structure that there are references to. -/
def Needed (owns : AtomRef → Nat) (rt : AtomTable) (p : Address) : Prop :=
  0 < owns (.value p) ∨ ∃ i, rt.place i = some p ∧ 0 < counted owns i

/-- Strings and atoms that there are references to are as before. -/
structure Keeps (owns : AtomRef → Nat) (rt after : AtomTable) : Prop where
  place : ∀ {i p}, rt.place i = some p → 0 < counted owns i → after.place i = some p
  content : ∀ {p count string type}, rt.content p = some (count, string, type) →
    Needed owns rt p → ∃ count' type', after.content p = some (count', string, type') ∧
      (type.isSome → type' = type)

theorem counted_mono (fewer : ∀ ref, left ref ≤ owns ref) (i : JSAtom) :
    counted left i ≤ counted owns i := by
  unfold counted
  split
  · exact le_rfl
  · exact fewer _

theorem Needed.mono (fewer : ∀ ref, left ref ≤ owns ref) (needed : Needed left rt p) :
    Needed owns rt p :=
  needed.imp (·.trans_le (fewer _))
    fun ⟨i, isPlace, has⟩ => ⟨i, isPlace, has.trans_le (counted_mono fewer i)⟩

namespace Keeps

theorem refl (owns : AtomRef → Nat) (rt : AtomTable) : Keeps owns rt rt :=
  ⟨fun isPlace _ => isPlace, fun isContent _ => ⟨_, _, isContent, fun _ => rfl⟩⟩

theorem needed (keeps : Keeps owns rt after) (needed : Needed owns rt p) : Needed owns after p :=
  needed.imp_right fun ⟨i, isPlace, has⟩ => ⟨i, keeps.place isPlace has, has⟩

theorem trans {last : AtomTable} (first : Keeps owns rt after) (second : Keeps owns after last) :
    Keeps owns rt last where
  place isPlace has := second.place (first.place isPlace has) has
  content isContent needed := by
    obtain ⟨count, type, isThere, same⟩ := first.content isContent needed
    obtain ⟨count', type', isLast, same'⟩ := second.content isThere (first.needed needed)
    refine ⟨count', type', isLast, fun isAtom => ?_⟩
    rw [same' (same isAtom ▸ isAtom), same isAtom]

/-- Keeping is about references that are still there. -/
theorem mono (keeps : Keeps owns rt after) (fewer : ∀ ref, left ref ≤ owns ref) :
    Keeps left rt after where
  place isPlace has := keeps.place isPlace (has.trans_le (counted_mono fewer _))
  content isContent needed := keeps.content isContent (needed.mono fewer)

end Keeps

/-- The type and the chars of an atom. -/
def text (rt : AtomTable) (i : JSAtom) : Option (AtomType × List UInt16) :=
  (rt.place i).bind fun p => (rt.content p).bind fun held => held.2.2.map (·, held.2.1.units)

/-- No string atom is new. -/
def NoNew (rt after : AtomTable) : Prop :=
  ∀ i type units, type ≠ .symbol → after.text i = some (type, units) →
    rt.text i = some (type, units)

/-- Nothing is new but counts. -/
structure Old (rt after : AtomTable) : Prop where
  place : ∀ {i p}, after.place i = some p → rt.place i = some p
  content : ∀ {p count string type}, after.content p = some (count, string, type) →
    ∃ before, rt.content p = some (before, string, type)

/-- What giving up references does. -/
structure Lowered (left : AtomRef → Nat) (rt after : AtomTable) : Prop where
  sound : Sound left after
  keeps : Keeps left rt after
  old : Old rt after
  notFull : rt.atomFreeIndex ≠ 0 → after.atomFreeIndex ≠ 0

/-- What new references do. -/
structure Raised (owns gained : AtomRef → Nat) (rt after : AtomTable) : Prop where
  sound : Sound gained after
  keeps : Keeps owns rt after
  noNew : NoNew rt after

theorem text_eq_some {type : AtomType} {units : List UInt16} : rt.text i = some (type, units) ↔
    ∃ p count string, rt.place i = some p ∧ rt.content p = some (count, string, some type) ∧
      string.units = units := by
  simp only [text, Option.bind_eq_some_iff, Option.map_eq_some_iff, Prod.mk.injEq]
  constructor
  · rintro ⟨p, isPlace, ⟨count, string, held⟩, isContent, type', isType, rfl, rfl⟩
    obtain rfl : held = some type' := isType
    exact ⟨p, count, string, isPlace, isContent, rfl⟩
  · rintro ⟨p, count, string, isPlace, isContent, rfl⟩
    exact ⟨p, isPlace, _, isContent, type, rfl, rfl, rfl⟩

theorem Old.noNew (old : Old rt after) : NoNew rt after := by
  intro i type units _ isText
  obtain ⟨p, count, string, isPlace, isContent, isUnits⟩ := text_eq_some.mp isText
  obtain ⟨before, isBefore⟩ := old.content isContent
  exact text_eq_some.mpr ⟨p, before, string, old.place isPlace, isBefore, isUnits⟩

theorem old_recount {count count' : Int} {string : JSString} {type : Option AtomType}
    (places : after.place = rt.place) (isContent : rt.content p = some (count, string, type))
    (content : after.content = Function.update rt.content p (some (count', string, type))) :
    Old rt after where
  place isPlace := places ▸ isPlace
  content {q count'' _ _} isThere := by
    rw [content] at isThere
    by_cases same : q = p
    · subst same
      rw [Function.update_self, Option.some_inj] at isThere
      obtain ⟨-, rfl, rfl⟩ := isThere
      exact ⟨count, isContent⟩
    · rw [Function.update_of_ne same] at isThere
      exact ⟨_, isThere⟩

theorem old_free (places : ∀ {i p}, after.place i = some p → rt.place i = some p)
    (content : after.content = Function.update rt.content p none) : Old rt after where
  place := places
  content {q count _ _} isThere := by
    rw [content] at isThere
    by_cases same : q = p
    · simp [same] at isThere
    · rw [Function.update_of_ne same] at isThere
      exact ⟨count, isThere⟩

theorem noNew_alloc (places : after.place = rt.place) (notPlaced : ∀ i, rt.place i ≠ some p)
    {held : Option (Int × JSString × Option AtomType)}
    (content : after.content = Function.update rt.content p held) : NoNew rt after := by
  intro i type units _ isText
  obtain ⟨q, count, string, isPlace, isContent, isUnits⟩ := text_eq_some.mp isText
  rw [places] at isPlace
  have same : q ≠ p := by
    rintro rfl
    exact notPlaced i isPlace
  rw [content, Function.update_of_ne same] at isContent
  exact text_eq_some.mpr ⟨q, count, string, isPlace, isContent, isUnits⟩

/-! ## Single changes -/

namespace Sound

theorem needed (sound : Sound owns rt) {held : Int × JSString × Option AtomType}
    (isContent : rt.content p = some held) : Needed owns rt p := by
  obtain ⟨count, string, type⟩ := held
  have due := sound.due isContent
  by_cases isAtom : ∃ i, rt.place i = some p
  · obtain ⟨i, isPlace⟩ := isAtom
    have total := due.atom i isPlace
    have positive := due.positive
    by_cases isValue : 0 < owns (.value p)
    · exact .inl isValue
    · exact .inr ⟨i, isPlace, by omega⟩
  · simp only [not_exists] at isAtom
    have total := due.string isAtom
    have positive := due.positive
    exact .inl (by omega)

theorem exists_content (sound : Sound owns rt) (isPlace : rt.place i = some p) :
    ∃ count string type, rt.content p = some (count, string, some type) := by
  obtain ⟨str, type, isStr, isType, -⟩ := sound.placed isPlace
  exact ⟨str.refCount, str.string, type, content_eq_some.mpr ⟨str, isStr, by rw [isType]⟩⟩

/-- A count changes with the references. -/
theorem recount {count count' : Int} {string : JSString} {type : Option AtomType}
    (sound : Sound owns rt) (formed : after.Formed) (places : after.place = rt.place)
    (isContent : rt.content p = some (count, string, type))
    (content : after.content = Function.update rt.content p (some (count', string, type)))
    (due : Due left rt.place p count')
    (others : ∀ q, q ≠ p → left (.value q) = owns (.value q))
    (otherAtoms : ∀ i, rt.place i ≠ some p → left (.atom i) = owns (.atom i)) :
    Sound left after where
  toFormed := formed
  due {q count string type} isThere := by
    rw [content] at isThere
    rw [places]
    by_cases same : q = p
    · subst same
      rw [Function.update_self, Option.some_inj] at isThere
      obtain ⟨rfl, rfl, rfl⟩ := isThere
      exact due
    · rw [Function.update_of_ne same] at isThere
      have before := sound.due isThere
      refine ⟨fun i isPlace => ?_, fun notPlaced => ?_, before.positive⟩
      · have notHere : rt.place i ≠ some p := fun isHere =>
          same (Option.some_inj.mp (isPlace.symm.trans isHere))
        rw [counted, others q same, otherAtoms i notHere]
        exact before.atom i isPlace
      · rw [others q same]
        exact before.string notPlaced
  inUse {q} has := by
    rw [content]
    by_cases same : q = p
    · exact ⟨_, by rw [same, Function.update_self]⟩
    · rw [others q same] at has
      rw [Function.update_of_ne same]
      exact sound.inUse has
  held {i} has notNumber := by
    rw [places]
    by_cases isHere : rt.place i = some p
    · exact ⟨p, isHere⟩
    · rw [otherAtoms i isHere] at has
      exact sound.held has notNumber

theorem keeps_recount {count count' : Int} {string : JSString} {type : Option AtomType}
    (places : after.place = rt.place) (isContent : rt.content p = some (count, string, type))
    (content : after.content = Function.update rt.content p (some (count', string, type))) :
    Keeps owns rt after where
  place isPlace _ := places ▸ isPlace
  content {q count'' string'' type''} isThere _ := by
    rw [content]
    by_cases same : q = p
    · subst same
      obtain ⟨rfl, rfl, rfl⟩ := Prod.mk.inj (Option.some_inj.mp (isContent.symm.trans isThere))
        |>.imp_right Prod.mk.inj
      exact ⟨_, _, Function.update_self _ _ _, fun _ => rfl⟩
    · exact ⟨_, _, by rw [Function.update_of_ne same, isThere], fun _ => rfl⟩

/-- The last reference to an atom is given up, and its structure is freed. -/
theorem free_atom (sound : Sound owns rt) (formed : after.Formed) (isPlace : rt.place i = some p)
    (places : after.place = Function.update rt.place i none)
    (content : after.content = Function.update rt.content p none)
    (noValue : left (.value p) = 0) (noAtom : counted left i = 0)
    (others : ∀ q, q ≠ p → left (.value q) = owns (.value q))
    (otherAtoms : ∀ j, j ≠ i → left (.atom j) = owns (.atom j)) : Sound left after where
  toFormed := formed
  due {q count string type} isThere := by
    rw [content] at isThere
    have same : q ≠ p := by
      rintro rfl
      simp at isThere
    rw [Function.update_of_ne same] at isThere
    have before := sound.due isThere
    rw [places]
    have keeps : ∀ j, Function.update rt.place i none j = some q ↔ rt.place j = some q := by
      intro j
      by_cases isI : j = i
      · subst isI
        simp [isPlace, Ne.symm same]
      · rw [Function.update_of_ne isI]
    refine ⟨fun j isHere => ?_, fun notPlaced => ?_, before.positive⟩
    · have isOther : j ≠ i := by
        rintro rfl
        simp at isHere
      rw [counted, others q same, otherAtoms j isOther]
      exact before.atom j ((keeps j).mp isHere)
    · rw [others q same]
      exact before.string fun j isHere => notPlaced j ((keeps j).mpr isHere)
  inUse {q} has := by
    have same : q ≠ p := by
      rintro rfl
      omega
    rw [others q same] at has
    rw [content, Function.update_of_ne same]
    exact sound.inUse has
  held {j} has notNumber := by
    have isOther : j ≠ i := by
      rintro rfl
      unfold counted at noAtom
      split at noAtom <;> omega
    rw [otherAtoms j isOther] at has
    rw [places, Function.update_of_ne isOther]
    exact sound.held has notNumber

theorem keeps_free_atom (sound : Sound owns rt) (isPlace : rt.place i = some p)
    (places : after.place = Function.update rt.place i none)
    (content : after.content = Function.update rt.content p none)
    (noValue : left (.value p) = 0) (noAtom : counted left i = 0) : Keeps left rt after where
  place {j q} isHere has := by
    have isOther : j ≠ i := by
      rintro rfl
      omega
    rw [places, Function.update_of_ne isOther, isHere]
  content {q count string type} isThere needed := by
    have same : q ≠ p := by
      rintro rfl
      rcases needed with isValue | ⟨j, isHere, has⟩
      · omega
      · obtain rfl := sound.apart isHere isPlace
        omega
    exact ⟨_, _, by rw [content, Function.update_of_ne same, isThere], fun _ => rfl⟩

/-- A string that no atom has is made or freed. -/
theorem restring (sound : Sound owns rt) (formed : after.Formed) (places : after.place = rt.place)
    (notPlaced : ∀ i, rt.place i ≠ some p) {held : Option (Int × JSString × Option AtomType)}
    (content : after.content = Function.update rt.content p held)
    (due : ∀ count ∈ held.map Prod.fst, count = left (.value p) ∧ 0 < count)
    (has : 0 < left (.value p) → held ≠ none)
    (others : ∀ q, q ≠ p → left (.value q) = owns (.value q))
    (otherAtoms : ∀ i, left (.atom i) = owns (.atom i)) : Sound left after where
  toFormed := formed
  due {q count string type} isThere := by
    rw [content] at isThere
    rw [places]
    by_cases same : q = p
    · subst same
      rw [Function.update_self] at isThere
      obtain ⟨isCount, positive⟩ := due count (by simp [isThere])
      exact ⟨fun i isPlace => absurd isPlace (notPlaced i), fun _ => isCount, positive⟩
    · rw [Function.update_of_ne same] at isThere
      have before := sound.due isThere
      refine ⟨fun i isPlace => ?_, fun notPlaced => ?_, before.positive⟩
      · rw [counted, others q same, otherAtoms i]
        exact before.atom i isPlace
      · rw [others q same]
        exact before.string notPlaced
  inUse {q} isValue := by
    rw [content]
    by_cases same : q = p
    · subst same
      rw [Function.update_self]
      exact Option.ne_none_iff_exists'.mp (has isValue)
    · rw [Function.update_of_ne same]
      rw [others q same] at isValue
      exact sound.inUse isValue
  held {i} isAtom notNumber := by
    rw [places]
    rw [otherAtoms i] at isAtom
    exact sound.held isAtom notNumber

theorem keeps_restring (places : after.place = rt.place) (notPlaced : ∀ i, rt.place i ≠ some p)
    {held : Option (Int × JSString × Option AtomType)}
    (content : after.content = Function.update rt.content p held)
    (unused : rt.content p = none ∨ left (.value p) = 0) : Keeps left rt after where
  place isPlace _ := places ▸ isPlace
  content {q count string type} isThere needed := by
    have same : q ≠ p := by
      rintro rfl
      rcases unused with fresh | noValue
      · simp [fresh] at isThere
      · rcases needed with isValue | ⟨i, isPlace, -⟩
        · omega
        · exact notPlaced i isPlace
    exact ⟨_, _, by rw [content, Function.update_of_ne same, isThere], fun _ => rfl⟩

end Sound

namespace Formed

theorem write_count (formed : rt.Formed) (isStr : rt.strings p = some str) (refCount : Int) :
    (rt.write p (some { str with refCount })).Formed := by
  refine formed.congr rfl rfl rfl rfl (fun {i q held} reads => ?_) fun q held notPlaced isHeld => ?_
  · by_cases same : q = p
    · subst same
      obtain rfl := Option.some_inj.mp (isStr.symm.trans (read_eq_some.mp reads).2)
      exact ⟨refCount, Function.update_self _ _ _⟩
    · exact ⟨held.refCount, by
        rw [strings_write, Function.update_of_ne same, (read_eq_some.mp reads).2]⟩
  · by_cases same : q = p
    · subst same
      rw [strings_write, Function.update_self, Option.some_inj] at isHeld
      rw [← isHeld]
      exact (formed.plain isStr notPlaced : str.atomType = none)
    · rw [strings_write, Function.update_of_ne same] at isHeld
      exact formed.plain isHeld notPlaced

theorem write_string (formed : rt.Formed) (notPlaced : ∀ i, rt.place i ≠ some p)
    {str : Option JSAtomStruct} (isPlain : ∀ held ∈ str, held.atomType = none) :
    (rt.write p str).Formed := by
  refine formed.congr rfl rfl rfl rfl (fun {i q held} reads => ?_) fun q held isFree isHeld => ?_
  · have same : q ≠ p := by
      rintro rfl
      exact notPlaced i (read_eq_some.mp reads).1
    exact ⟨held.refCount, by
      rw [strings_write, Function.update_of_ne same, (read_eq_some.mp reads).2]⟩
  · by_cases same : q = p
    · subst same
      rw [strings_write, Function.update_self] at isHeld
      exact isPlain held isHeld
    · rw [strings_write, Function.update_of_ne same] at isHeld
      exact formed.plain isHeld isFree

end Formed

theorem content_write_count (rt : AtomTable) (p : Address) (str : JSAtomStruct) (refCount : Int) :
    (rt.write p (some { str with refCount })).content =
      Function.update rt.content p (some (refCount, str.string, str.atomType)) :=
  content_write rt p _

theorem not_const_of_counted (none : counted owns i = 0) : atomIsConst i = false := by
  unfold counted at none
  split at none
  · cases none
  · next notConst => simpa using notConst

theorem ne_zero_of_not_const (notConst : atomIsConst i = false) : i ≠ 0 := by
  rintro rfl
  simp [atomIsConst, jsAtomEnd_eq] at notConst

/-! ## References to strings -/

namespace Sound

theorem exists_string (sound : Sound owns rt) (has : 0 < owns (.value p)) :
    ∃ str, rt.strings p = some str ∧ Due owns rt.place p str.refCount := by
  obtain ⟨held, isContent⟩ := sound.inUse has
  obtain ⟨str, isStr, rfl⟩ := content_eq_some.mp isContent
  exact ⟨str, isStr, sound.due isContent⟩

theorem lower (sound : Sound owns rt) (isStr : rt.strings p = some str)
    (due : Due left rt.place p (str.refCount - 1))
    (others : ∀ q, q ≠ p → left (.value q) = owns (.value q))
    (otherAtoms : ∀ i, rt.place i ≠ some p → left (.atom i) = owns (.atom i)) :
    Lowered left rt (rt.write p (some { str with refCount := str.refCount - 1 })) :=
  have isContent := content_eq_some.mpr ⟨str, isStr, rfl⟩
  have content := content_write_count rt p str (str.refCount - 1)
  ⟨sound.recount (sound.write_count isStr _) rfl isContent content due others otherAtoms,
    keeps_recount rfl isContent content, old_recount rfl isContent content, id⟩

/-- The structure of an atom is freed with its last reference. -/
theorem exists_last (sound : Sound owns rt) (isPlace : rt.place i = some p)
    (isStr : rt.strings p = some str) (noValue : left (.value p) = 0) (noAtom : counted left i = 0)
    (others : ∀ q, q ≠ p → left (.value q) = owns (.value q))
    (otherAtoms : ∀ j, j ≠ i → left (.atom j) = owns (.atom j)) :
    ∃ after, (rt.write p (some { str with refCount := str.refCount - 1 })).jsFreeAtomStruct p =
      some after ∧ Lowered left rt after := by
  have formed := sound.write_count isStr (str.refCount - 1)
  have notNull := ne_zero_of_not_const (not_const_of_counted noAtom)
  obtain ⟨after, frees, formedAfter, places, content, freeIndex⟩ :=
    formed.exists_jsFreeAtomStruct isPlace notNull
  rw [content_write_count, Function.update_idem] at content
  refine ⟨after, frees, sound.free_atom formedAfter isPlace places content noValue noAtom others
    otherAtoms, sound.keeps_free_atom isPlace places content noValue noAtom,
    old_free (fun {j q} isHere => ?_) content, fun _ => freeIndex ▸ notNull⟩
  rw [places] at isHere
  by_cases same : j = i
  · simp [same] at isHere
  · rwa [Function.update_of_ne same] at isHere

theorem exists_jsFreeString (sound : Sound owns rt)
    (takes : ∀ ref, owns ref = left ref + [AtomRef.value p].count ref) :
    ∃ after, rt.jsFreeString p = some after ∧ Lowered left rt after := by
  have takesValue : owns (.value p) = left (.value p) + 1 := by simpa using takes (.value p)
  have others : ∀ q, q ≠ p → left (.value q) = owns (.value q) := by
    intro q same
    simpa [Ne.symm same] using (takes (.value q)).symm
  have otherAtoms : ∀ i, left (.atom i) = owns (.atom i) := fun i => by
    simpa using (takes (.atom i)).symm
  have sameCounted : ∀ i, counted left i = counted owns i := fun i => by
    rw [counted, counted, otherAtoms]
  obtain ⟨str, isStr, due⟩ := sound.exists_string (by omega : 0 < owns (.value p))
  have positive := due.positive
  by_cases isLast : str.refCount - 1 ≤ 0
  · by_cases isAtom : ∃ i, rt.place i = some p
    · obtain ⟨i, isPlace⟩ := isAtom
      have total := due.atom i isPlace
      have noAtom : counted left i = 0 := by
        rw [sameCounted]
        omega
      obtain ⟨after, frees, rest⟩ := sound.exists_last isPlace isStr (by omega) noAtom others
        fun j _ => otherAtoms j
      have hasType : str.atomType.isSome = true := by
        obtain ⟨held, type, isHeld, isType, -⟩ := sound.placed isPlace
        obtain rfl := Option.some_inj.mp (isStr.symm.trans isHeld)
        rw [isType]
        rfl
      refine ⟨after, ?_, rest⟩
      simp only [jsFreeString, isStr, Option.bind_eq_bind, Option.bind_some, if_pos isLast, hasType,
        if_true, frees]
    · simp only [not_exists] at isAtom
      have total := due.string isAtom
      have noType : str.atomType.isSome = false := by
        rw [sound.plain isStr isAtom]
        rfl
      have formed := (sound.write_count isStr (str.refCount - 1)).write_string isAtom
        (by simp : ∀ held ∈ (none : Option JSAtomStruct), held.atomType = none)
      have content := content_write (rt.write p (some { str with refCount := str.refCount - 1 }))
        p none
      rw [content_write_count, Function.update_idem] at content
      refine ⟨_, ?_, sound.restring formed rfl isAtom content (by simp) (by omega) others
        otherAtoms, keeps_restring rfl isAtom content (.inr (by omega)),
        old_free id content, id⟩
      simp only [jsFreeString, isStr, Option.bind_eq_bind, Option.bind_some, if_pos isLast, noType,
        Bool.false_eq_true, if_false, Option.pure_def]
  · refine ⟨_, ?_, sound.lower isStr ⟨fun i isPlace => ?_, fun notPlaced => ?_, by omega⟩ others
      fun i _ => otherAtoms i⟩
    · simp only [jsFreeString, isStr, Option.bind_eq_bind, Option.bind_some, if_neg isLast,
        Option.pure_def]
    · have total := due.atom i isPlace
      rw [sameCounted]
      omega
    · have total := due.string notPlaced
      omega

/-- References to an atom that are not counted make no difference. -/
theorem congr_owns (sound : Sound owns rt) (values : ∀ p, left (.value p) = owns (.value p))
    (same : ∀ i, counted left i = counted owns i)
    (held : ∀ i, 0 < left (.atom i) → i < jsAtomTagInt →
      0 < owns (.atom i) ∨ ∃ p, rt.place i = some p) : Sound left rt where
  toFormed := sound.toFormed
  due isContent := by
    have before := sound.due isContent
    exact ⟨fun i isPlace => by rw [values, same]; exact before.atom i isPlace,
      fun notPlaced => by rw [values]; exact before.string notPlaced, before.positive⟩
  inUse has := sound.inUse (values _ ▸ has)
  held has notNumber := (held _ has notNumber).elim (sound.held · notNumber) id

theorem exists_atom (sound : Sound owns rt) (has : 0 < owns (.atom i))
    (notConst : atomIsConst i = false) : ∃ p str, rt.read i = some (p, str) ∧
      Due owns rt.place p str.refCount := by
  have notNumber : i < jsAtomTagInt := by
    simp only [atomIsConst, Bool.or_eq_false_iff, decide_eq_false_iff_not] at notConst
    exact Nat.lt_of_not_le notConst.2
  obtain ⟨p, isPlace⟩ := sound.held has notNumber
  obtain ⟨str, type, isStr, -⟩ := sound.placed isPlace
  exact ⟨p, str, read_eq_some.mpr ⟨isPlace, isStr⟩,
    sound.due (content_eq_some.mpr ⟨str, isStr, rfl⟩)⟩

theorem exists_jsFreeAtom (sound : Sound owns rt)
    (takes : ∀ ref, owns ref = left ref + [AtomRef.atom i].count ref) :
    ∃ after, rt.jsFreeAtom i = some after ∧ Lowered left rt after := by
  have takesAtom : owns (.atom i) = left (.atom i) + 1 := by simpa using takes (.atom i)
  have others : ∀ j, j ≠ i → left (.atom j) = owns (.atom j) := by
    intro j same
    simpa [Ne.symm same] using (takes (.atom j)).symm
  have values : ∀ q, left (.value q) = owns (.value q) := fun q => by
    simpa using (takes (.value q)).symm
  cases isConst : atomIsConst i with
  | true =>
      refine ⟨rt, by simp [jsFreeAtom, isConst], sound.congr_owns values (fun j => ?_)
        (fun j has _ => .inl ?_), .refl left rt, ⟨id, fun isThere => ⟨_, isThere⟩⟩, id⟩
      · by_cases same : j = i
        · subst same
          simp [counted, isConst]
        · rw [counted, counted, others j same]
      · have some_ := takes (.atom j)
        omega
  | false =>
      obtain ⟨p, str, reads, due⟩ :=
        sound.exists_atom (by omega : 0 < owns (.atom i)) isConst
      obtain ⟨isPlace, isStr⟩ := read_eq_some.mp reads
      have total := due.atom i isPlace
      rw [counted, if_neg (by simp [isConst])] at total
      have lowered : counted left i = left (.atom i) := if_neg (by simp [isConst])
      have positive := due.positive
      by_cases isMore : 0 < str.refCount - 1
      · refine ⟨_, ?_, sound.lower isStr ⟨fun j isHere => ?_, fun notPlaced =>
          absurd isPlace (notPlaced i), isMore⟩ (fun q _ => values q) fun j notHere =>
            others j fun same => notHere (same ▸ isPlace)⟩
        · simp only [jsFreeAtom, isConst, Bool.false_eq_true, if_false, reads, Option.bind_eq_bind,
            Option.bind_some, if_pos isMore, Option.pure_def]
        · obtain rfl := sound.apart isHere isPlace
          rw [lowered, values]
          omega
      · obtain ⟨after, frees, rest⟩ := sound.exists_last isPlace isStr
          (by rw [values]; omega) (by omega) (fun q _ => values q) others
        refine ⟨after, ?_, rest⟩
        simp only [jsFreeAtom, isConst, Bool.false_eq_true, if_false, reads, Option.bind_eq_bind,
          Option.bind_some, if_neg isMore, frees]

theorem raise (sound : Sound owns rt) (isStr : rt.strings p = some str)
    (due : Due left rt.place p (str.refCount + 1))
    (others : ∀ q, q ≠ p → left (.value q) = owns (.value q))
    (otherAtoms : ∀ i, rt.place i ≠ some p → left (.atom i) = owns (.atom i)) :
    Raised owns left rt (rt.write p (some { str with refCount := str.refCount + 1 })) :=
  have isContent := content_eq_some.mpr ⟨str, isStr, rfl⟩
  have content := content_write_count rt p str (str.refCount + 1)
  have old : Old rt (rt.write p (some { str with refCount := str.refCount + 1 })) :=
    old_recount rfl isContent content
  ⟨sound.recount (sound.write_count isStr _) rfl isContent content due others otherAtoms,
    keeps_recount rfl isContent content, old.noNew⟩

theorem exists_jsDupString {held : Int × JSString × Option AtomType} (sound : Sound owns rt)
    (isContent : rt.content p = some held)
    (gives : ∀ ref, left ref = owns ref + [AtomRef.value p].count ref) :
    ∃ after, rt.jsDupString p = some after ∧ Raised owns left rt after := by
  have givesValue : left (.value p) = owns (.value p) + 1 := by simpa using gives (.value p)
  have otherAtoms : ∀ i, left (.atom i) = owns (.atom i) := fun i => by
    simpa using gives (.atom i)
  obtain ⟨str, isStr, rfl⟩ := content_eq_some.mp isContent
  have due := sound.due isContent
  have positive := due.positive
  refine ⟨_, by simp [jsDupString, isStr], sound.raise isStr ⟨fun i isPlace => ?_,
    fun notPlaced => ?_, by omega⟩ (fun q same => ?_) fun i _ => otherAtoms i⟩
  · have total := due.atom i isPlace
    rw [counted, otherAtoms, ← counted]
    omega
  · have total := due.string notPlaced
    omega
  · simpa [Ne.symm same] using gives (.value q)

/-- The structure of an atom with one reference more. -/
theorem acquire (sound : Sound owns rt) (reads : rt.read i = some (p, str))
    (gives : ∀ ref, left ref = owns ref + [AtomRef.atom i].count ref) :
    Raised owns left rt (if atomIsConst i then rt
      else rt.write p (some { str with refCount := str.refCount + 1 })) := by
  have givesAtom : left (.atom i) = owns (.atom i) + 1 := by simpa using gives (.atom i)
  have others : ∀ j, j ≠ i → left (.atom j) = owns (.atom j) := by
    intro j same
    simpa [Ne.symm same] using gives (.atom j)
  have values : ∀ q, left (.value q) = owns (.value q) := fun q => by
    simpa using gives (.value q)
  obtain ⟨isPlace, isStr⟩ := read_eq_some.mp reads
  cases isConst : atomIsConst i with
  | true =>
      refine ⟨sound.congr_owns values (fun j => ?_) (fun j hasJ _ => ?_), .refl owns rt,
        fun _ _ _ _ isText => isText⟩
      · by_cases same : j = i
        · subst same
          simp [counted, isConst]
        · rw [counted, counted, others j same]
      · by_cases same : j = i
        · exact .inr ⟨p, same ▸ isPlace⟩
        · exact .inl (others j same ▸ hasJ)
  | false =>
      have due := sound.due (content_eq_some.mpr ⟨str, isStr, rfl⟩)
      have total := due.atom i isPlace
      have positive := due.positive
      rw [counted, if_neg (by simp [isConst])] at total
      refine sound.raise isStr ⟨fun j isHere => ?_, fun notPlaced => absurd isPlace (notPlaced i),
        by omega⟩ (fun q _ => values q) fun j notHere => others j fun same =>
          notHere (same ▸ isPlace)
      obtain rfl := sound.apart isHere isPlace
      rw [counted, if_neg (by simp [isConst]), values]
      omega

theorem exists_jsDupAtom (sound : Sound owns rt) (has : 0 < owns (.atom i))
    (gives : ∀ ref, left ref = owns ref + [AtomRef.atom i].count ref) :
    ∃ after, rt.jsDupAtom i = some (i, after) ∧ Raised owns left rt after := by
  cases isConst : atomIsConst i with
  | true =>
      have values : ∀ q, left (.value q) = owns (.value q) := fun q => by
        simpa using gives (.value q)
      refine ⟨rt, by simp [jsDupAtom, isConst], sound.congr_owns values (fun j => ?_)
        (fun j hasJ _ => .inl ?_), .refl owns rt, fun _ _ _ _ isText => isText⟩ <;>
        by_cases same : j = i
      · subst same
        simp [counted, isConst]
      · simp [counted, gives, Ne.symm same]
      · exact same ▸ has
      · simpa [gives, Ne.symm same] using hasJ
  | false =>
      obtain ⟨p, str, reads, -⟩ := sound.exists_atom has isConst
      refine ⟨_, ?_, sound.acquire reads gives⟩
      simp [jsDupAtom, isConst, reads]

/-- A string that is allocated. -/
theorem allocString (sound : Sound owns rt) (string : JSString) (fresh : rt.strings p = none)
    (gives : ∀ ref, left ref = owns ref + [AtomRef.value p].count ref) :
    Raised owns left rt (rt.jsAllocString p string) := by
  have noContent : rt.content p = none := by rw [content, fresh]; rfl
  have notPlaced : ∀ i, rt.place i ≠ some p := by
    intro i isPlace
    obtain ⟨_, _, _, isContent⟩ := sound.exists_content isPlace
    simp [noContent] at isContent
  have nothing : owns (.value p) = 0 := by
    by_contra has
    obtain ⟨held, isContent⟩ := sound.inUse (Nat.pos_of_ne_zero has)
    simp [noContent] at isContent
  have givesValue : left (.value p) = owns (.value p) + 1 := by simpa using gives (.value p)
  have formed := sound.toFormed.write_string notPlaced
    (by simp : ∀ held ∈ some (⟨1, string, 0, none, 0⟩ : JSAtomStruct), held.atomType = none)
  have content := content_write rt p (some ⟨1, string, 0, none, 0⟩)
  refine ⟨sound.restring formed rfl notPlaced content ?_ (by simp) (fun q same => ?_) fun i => ?_,
    keeps_restring rfl notPlaced content (.inl noContent), noNew_alloc rfl notPlaced content⟩
  · simp [givesValue, nothing]
  · simpa [Ne.symm same] using gives (.value q)
  · simpa using gives (.atom i)

end Sound

end AtomTable

end Jib.QuickJS
