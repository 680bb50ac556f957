import Jib.QuickJSCollector

/-!
# The lists of QuickJS's collector

What the lists of a runtime hold, as the operations on links change it.
-/

namespace Jib.QuickJS.GCRuntime

open LinkedLists

/-- The elements of the lists; the second one is only there during a collection. -/
structure Lists where
  gcObj : List Address
  tmpObj : Option (List Address)
  zero : List Address

namespace Lists

def content (lists : Lists) : GCList → Option (List Address)
  | .gcObjList => some lists.gcObj
  | .tmpObjList => lists.tmpObj
  | .gcZeroRefCountList => some lists.zero

def elements (lists : Lists) (list : GCList) : List Address :=
  (lists.content list).getD []

/-- The object is in one of the lists. -/
def Listed (lists : Lists) (p : Address) : Prop :=
  ∃ list, p ∈ lists.elements list

def erase (lists : Lists) (p : Address) : Lists :=
  ⟨lists.gcObj.erase p, lists.tmpObj.map (·.erase p), lists.zero.erase p⟩

variable (lists : Lists)

@[simp]
theorem update_gcObj (nodes : List Address) :
    Function.update lists.content .gcObjList (some nodes) =
      ({ lists with gcObj := nodes } : Lists).content := by
  funext list
  cases list <;> rfl

@[simp]
theorem update_tmpObj (nodes : List Address) :
    Function.update lists.content .tmpObjList (some nodes) =
      ({ lists with tmpObj := some nodes } : Lists).content := by
  funext list
  cases list <;> rfl

@[simp]
theorem update_zero (nodes : List Address) :
    Function.update lists.content .gcZeroRefCountList (some nodes) =
      ({ lists with zero := nodes } : Lists).content := by
  funext list
  cases list <;> rfl

variable {lists} {links : Links GCList Address} {list : GCList} {p q : Address}

theorem listed_iff : lists.Listed p ↔
    p ∈ lists.gcObj ∨ p ∈ lists.elements .tmpObjList ∨ p ∈ lists.zero := by
  constructor
  · rintro ⟨list, member⟩
    cases list with
    | gcObjList => exact .inl member
    | tmpObjList => exact .inr (.inl member)
    | gcZeroRefCountList => exact .inr (.inr member)
  · rintro (member | member | member)
    · exact ⟨.gcObjList, member⟩
    · exact ⟨.tmpObjList, member⟩
    · exact ⟨.gcZeroRefCountList, member⟩

theorem content_of_mem (member : p ∈ lists.elements list) :
    lists.content list = some (lists.elements list) := by
  unfold elements at member ⊢
  cases isContent : lists.content list with
  | none => simp [isContent] at member
  | some nodes => rfl

theorem elements_erase (list : GCList) :
    (lists.erase p).elements list = (lists.elements list).erase p := by
  cases list with
  | tmpObjList =>
      cases isTmp : lists.tmpObj <;> simp [erase, elements, content, isTmp]
  | _ => rfl

/-- An element of one list is in no other one. -/
theorem not_mem_of_ne (holds : links.Holds lists.content) {other : GCList}
    (member : p ∈ lists.elements list) (differ : other ≠ list) :
    p ∉ lists.elements other := by
  intro inOther
  exact differ ((holds.mem_iff (content_of_mem member) member (content_of_mem inOther)).mp inOther)

theorem nodup_elements (holds : links.Holds lists.content) (list : GCList) :
    (lists.elements list).Nodup := by
  unfold elements
  cases isContent : lists.content list with
  | none => exact List.nodup_nil
  | some nodes => exact holds.nodup isContent

theorem listed_erase (holds : links.Holds lists.content) :
    (lists.erase p).Listed q ↔ lists.Listed q ∧ q ≠ p := by
  simp only [Listed, elements_erase, (nodup_elements holds _).mem_erase_iff]
  grind

theorem update_erase (holds : links.Holds lists.content) (member : p ∈ lists.elements list) :
    Function.update lists.content list (some ((lists.elements list).erase p)) =
      (lists.erase p).content := by
  funext other
  by_cases same : other = list
  · subst same
    rw [Function.update_self]
    have isContent := content_of_mem member
    cases other with
    | tmpObjList =>
        have isTmp : lists.tmpObj = some (lists.elements .tmpObjList) := isContent
        simp [content, erase, isTmp]
    | _ => rfl
  · rw [Function.update_of_ne same]
    have outside := not_mem_of_ne holds member same
    cases other with
    | tmpObjList =>
        cases isTmp : lists.tmpObj with
        | none => simp [content, erase, isTmp]
        | some nodes =>
            have notMember : p ∉ nodes := by simpa [elements, content, isTmp] using outside
            simp [content, erase, isTmp, List.erase_of_not_mem notMember]
    | gcObjList => exact congrArg some (List.erase_of_not_mem outside).symm
    | gcZeroRefCountList => exact congrArg some (List.erase_of_not_mem outside).symm

theorem fresh_erase (holds : links.Holds lists.content) (member : p ∈ lists.elements list) :
    Links.Fresh (lists.erase p).content p := by
  rw [← update_erase holds member]
  exact holds.fresh_erase (content_of_mem member) member

theorem exists_listDel (holds : links.Holds lists.content) (isListed : lists.Listed p) :
    ∃ after, links.listDel p = some after ∧ after.Holds (lists.erase p).content ∧
      Links.Fresh (lists.erase p).content p := by
  obtain ⟨list, member⟩ := isListed
  obtain ⟨after, deletes, holdsAfter⟩ := holds.erase (content_of_mem member) member
  rw [update_erase holds member] at holdsAfter
  exact ⟨after, deletes, holdsAfter, fresh_erase holds member⟩

/-- An element is added to a list. -/
theorem listed_update {now : Lists} {nodes others : List Address}
    (isContent : lists.content list = some others)
    (same : now.content = Function.update lists.content list (some nodes))
    (adds : ∀ q, q ∈ nodes ↔ q = p ∨ q ∈ others) : now.Listed q ↔ q = p ∨ lists.Listed q := by
  have elementsNow : ∀ other, now.elements other =
      if other = list then nodes else lists.elements other := by
    intro other
    rw [elements, same, Function.update_apply]
    split <;> rfl
  have elementsList : lists.elements list = others := by rw [elements, isContent]; rfl
  constructor
  · rintro ⟨other, member⟩
    rw [elementsNow] at member
    split at member
    · exact ((adds q).mp member).imp_right fun isOther => ⟨list, elementsList ▸ isOther⟩
    · exact .inr ⟨other, member⟩
  · rintro (rfl | ⟨other, member⟩)
    · exact ⟨list, by rw [elementsNow, if_pos rfl, adds]; exact .inl rfl⟩
    · refine ⟨other, ?_⟩
      rw [elementsNow]
      split
      · rename_i isList
        subst isList
        exact (adds q).mpr (.inr (elementsList ▸ member))
      · exact member

end Lists

section Moves

variable {links : Links GCList Address} {lists : Lists} {list : GCList} {p : Address}
  {nodes : List Address}

theorem exists_moveFront (holds : links.Holds lists.content) (isListed : lists.Listed p)
    (isContent : (lists.erase p).content list = some nodes) :
    ∃ after, (∀ rt : GCRuntime, rt.links = links →
        rt.moveFront p list = some { rt with links := after }) ∧
      after.Holds (Function.update (lists.erase p).content list (some (p :: nodes))) := by
  obtain ⟨middle, deletes, holdsMiddle, fresh⟩ := Lists.exists_listDel holds isListed
  obtain ⟨after, adds, holdsAfter⟩ := holdsMiddle.listAdd isContent fresh
  refine ⟨after, ?_, holdsAfter⟩
  rintro rt rfl
  simp [moveFront, deletes, adds]

theorem exists_moveTail (holds : links.Holds lists.content) (isListed : lists.Listed p)
    (isContent : (lists.erase p).content list = some nodes) :
    ∃ after, (∀ rt : GCRuntime, rt.links = links →
        rt.moveTail p list = some { rt with links := after }) ∧
      after.Holds (Function.update (lists.erase p).content list (some (nodes ++ [p]))) := by
  obtain ⟨middle, deletes, holdsMiddle, fresh⟩ := Lists.exists_listDel holds isListed
  obtain ⟨after, adds, holdsAfter⟩ := holdsMiddle.listAddTail isContent fresh
  refine ⟨after, ?_, holdsAfter⟩
  rintro rt rfl
  simp [moveTail, deletes, adds]

variable {rt : GCRuntime} {freeZeroRefcount : GCRuntime → Option GCRuntime}

theorem queueZeroRefcount_none (isNone : rt.gcPhase = .none)
    (moves : rt.moveFront p .gcZeroRefCountList = some { rt with links := links }) :
    queueZeroRefcount freeZeroRefcount p rt = freeZeroRefcount { rt with links := links } := by
  simp [queueZeroRefcount, isNone, moves]

theorem queueZeroRefcount_decref (isDecref : rt.gcPhase = .decref)
    (moves : rt.moveFront p .gcZeroRefCountList = some { rt with links := links }) :
    queueZeroRefcount freeZeroRefcount p rt = some { rt with links := links } := by
  simp [queueZeroRefcount, isDecref, moves]

theorem queueZeroRefcount_removeCycles (isRemoving : rt.gcPhase = .removeCycles) :
    queueZeroRefcount freeZeroRefcount p rt = some rt := by
  simp [queueZeroRefcount, isRemoving]

end Moves

end Jib.QuickJS.GCRuntime
