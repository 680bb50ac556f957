import Mathlib.Data.Option.Basic
import Jib.QuickJSLists

/-!
# Freeing objects of QuickJS

While objects are freed, some references have been given up whose count has not
been lowered yet.  With these, every count says how many references there are,
from objects that still have their fields and from outside.
-/

namespace Jib.QuickJS

open LinkedLists CycleCollection

/-- The types that wait in a list where the last reference goes away. -/
def GCObjType.isQueued : GCObjType → Bool
  | .jsObject | .functionBytecode | .asyncFunction => true
  | .shape | .varRef | .jsContext => false

/-! ## The kinds of references -/

theorem GCValue.mem_refs {value : GCValue} {ref : GCRef} (member : ref ∈ GCValue.refs value) :
    ∃ q, ref = .value q := by
  obtain ⟨q, -, rfl⟩ := List.mem_map.mp member
  exact ⟨q, rfl⟩

theorem GCValue.mem_flatMap_refs {values : List GCValue} {ref : GCRef}
    (member : ref ∈ values.flatMap GCValue.refs) : ∃ q, ref = .value q := by
  obtain ⟨value, -, isRef⟩ := List.mem_flatMap.mp member
  exact GCValue.mem_refs isRef

/-- Shapes and variables refer to what waits to be freed. -/
theorem GCObject.frees_of_leaf {object : GCObject} {ref : GCRef}
    (isLeaf : object.gcObjType = .shape ∨ object.gcObjType = .varRef)
    (member : ref ∈ object.frees) : (∃ q, ref = .value q) ∨ ∃ q, ref = .asyncFunc q := by
  cases object with
  | shape proto => exact .inl (GCValue.mem_refs member)
  | detachedVarRef value => exact .inl (GCValue.mem_refs member)
  | varRef asyncFunc =>
      obtain ⟨q, -, rfl⟩ := List.mem_map.mp member
      exact .inr ⟨q, rfl⟩
  | _ => simp [GCObject.gcObjType] at isLeaf

theorem GCObject.frees_of_context {object : GCObject} {ref : GCRef}
    (isContext : object.gcObjType = .jsContext) (member : ref ∈ object.frees) :
    (∃ q, ref = .value q) ∨ (∃ q, ref = .varRef q) ∨ ∃ q, ref = .shape q := by
  cases object with
  | jsContext loadedModules values arrayShape =>
      rcases List.mem_append.mp member with others | isShape
      · rcases List.mem_append.mp others with ofModules | ofValues
        · obtain ⟨module, -, ofModule⟩ := List.mem_flatMap.mp ofModules
          rcases List.mem_append.mp ofModule with ofVarRefs | ofValues
          · obtain ⟨varRef, -, isVarRef⟩ := List.mem_flatMap.mp ofVarRefs
            obtain ⟨q, -, rfl⟩ := List.mem_map.mp isVarRef
            exact .inr (.inl ⟨q, rfl⟩)
          · exact .inl (GCValue.mem_flatMap_refs ofValues)
        · exact .inl (GCValue.mem_flatMap_refs ofValues)
      · obtain ⟨q, -, rfl⟩ := List.mem_map.mp isShape
        exact .inr (.inr ⟨q, rfl⟩)
  | _ => simp [GCObject.gcObjType] at isContext

theorem GCRef.isQueued_of_value {p : Address} {type : GCObjType}
    (suits : (GCRef.value p).Suits type) :
    type.isQueued = true := by
  rcases suits with rfl | rfl <;> rfl

theorem GCRef.isQueued_of_asyncFunc {p : Address} {type : GCObjType}
    (suits : (GCRef.asyncFunc p).Suits type) :
    type.isQueued = true := by
  obtain rfl : type = .asyncFunction := suits
  rfl

/-! ## While objects are freed -/

namespace GCRuntime

/-- The objects that an object refers to. -/
def children (fields : Address → Option GCObject) (p : Address) : List Address :=
  match fields p with
  | some object => object.marks.map GCRef.target
  | none => []

/-- What stays the same while objects are freed: the phase, the references from
outside, and fields, types and marks as they were. -/
structure Outset where
  phase : GCPhase
  external : Address → Nat
  base : Address → Option GCObject
  type : Address → GCObjType
  mark : Address → Bool

namespace Outset

/-- The references to an object: those from outside, those of the objects that
have their fields, and those that are yet to be given up. -/
def owed (outset : Outset) (live pending : List Address) (p : Address) : Nat :=
  outset.external p + references (children outset.base) live p + pending.count p

def header (outset : Outset) (live pending : List Address) (p : Address) : GCObjectHeader :=
  ⟨outset.owed live pending p, outset.type p, outset.mark p⟩

/-- Objects without references wait to be freed. -/
def Waiting (outset : Outset) (live pending : List Address) (lists : Lists) : Prop :=
  lists.tmpObj = none ∧ ∀ p, p ∈ lists.zero ↔
    lists.Listed p ∧ (outset.type p).isQueued = true ∧ outset.owed live pending p = 0

/-- What the lists are for.  No object waits while none is freed; where cycles are
removed, objects that are kept refer to each other. -/
def Stage (outset : Outset) (live pending : List Address) (lists : Lists) : Prop :=
  match outset.phase with
  | .none => outset.Waiting live pending lists ∧ lists.zero = []
  | .decref => outset.Waiting live pending lists
  | .removeCycles => lists.tmpObj.isSome = true ∧ ∀ p ∈ lists.gcObj,
      p ∈ live ∧ 0 < outset.external p + references (children outset.base) lists.gcObj p

end Outset

/-- `live` objects have their fields, `busy` ones no longer; `pending` references
are still counted. -/
structure Freeing (outset : Outset) (live busy pending : List Address) (lists : Lists)
    (rt : GCRuntime) : Prop where
  phase : rt.gcPhase = outset.phase
  holds : rt.links.Holds lists.content
  header : ∀ p, lists.Listed p →
    rt.headers p = some (outset.header live pending p)
  freed : ∀ p, ¬lists.Listed p → rt.headers p = none
  fields : ∀ p, rt.fields p = if p ∈ live then outset.base p else none
  nodup : live.Nodup
  nodup_busy : busy.Nodup
  apart : ∀ p ∈ live, p ∉ busy
  listed_iff : ∀ p, lists.Listed p ↔ p ∈ live ∨ p ∈ busy
  object : ∀ p ∈ live, ∃ object, outset.base p = some object ∧
    object.gcObjType = outset.type p ∧
      ∀ ref ∈ object.marks, ref.Suits (outset.type ref.target)
  owed_listed : ∀ p, 0 < outset.owed live pending p → lists.Listed p
  owed_live : ∀ p ∈ live, (outset.type p).isQueued = false → 0 < outset.owed live pending p
  owed_busy : ∀ p ∈ busy, outset.phase ≠ .removeCycles ∨ (outset.type p).isQueued = false →
    outset.owed live pending p = 0
  idle : outset.phase = .none → ∀ p ∈ busy, (outset.type p).isQueued = false
  stage : outset.Stage live pending lists

/-- How freeing goes on: objects lose their fields, busy ones stay where they
are, and where cycles are removed nothing is added to a list. -/
structure Follows (outset : Outset) (busy live after : List Address) (lists now : Lists) :
    Prop where
  live : after.Sublist live
  busy : ∀ p ∈ busy, ∀ list, p ∈ lists.elements list → p ∈ now.elements list
  removing : outset.phase = .removeCycles → now.gcObj = lists.gcObj ∧
    ∀ list, (now.elements list).Sublist (lists.elements list)

variable {outset : Outset} {live after busy pending : List Address} {lists now later : Lists}
  {rt next : GCRuntime} {p q : Address}

theorem Follows.refl : Follows outset busy live live lists lists :=
  ⟨.refl _, fun _ _ _ => id, fun _ => ⟨rfl, fun _ => .refl _⟩⟩

theorem Follows.trans {last : List Address} (first : Follows outset busy live after lists now)
    (second : Follows outset busy after last now later) :
    Follows outset busy live last lists later where
  live := second.live.trans first.live
  busy := fun p isBusy list member => second.busy p isBusy list (first.busy p isBusy list member)
  removing := fun isRemoving =>
    ⟨(second.removing isRemoving).1.trans (first.removing isRemoving).1, fun list =>
      ((second.removing isRemoving).2 list).trans ((first.removing isRemoving).2 list)⟩

namespace Outset

theorem owed_cons (outset : Outset) (live pending : List Address) (p q : Address) :
    outset.owed live (p :: pending) q =
      outset.owed live pending q + if q = p then 1 else 0 := by
  simp only [owed, List.count_cons, beq_iff_eq, eq_comm (a := p)]
  omega

/-- An object whose fields are taken leaves its references pending. -/
theorem owed_erase (outset : Outset) {live : List Address} (member : p ∈ live)
    {object : GCObject} (isObject : outset.base p = some object) (pending : List Address) :
    outset.owed (live.erase p) (object.frees.map GCRef.target ++ pending) =
      outset.owed live pending := by
  funext q
  have perm := references_perm (children outset.base) (List.perm_cons_erase member) q
  have own : (object.frees.map GCRef.target).count q = (children outset.base p).count q := by
    rw [children, isObject]
    exact (object.frees_perm_marks.map _).count_eq q
  have split : references (children outset.base) (p :: live.erase p) q =
      (children outset.base p).count q + references (children outset.base) (live.erase p) q := by
    simp [references]
  simp only [owed, List.count_append, own, perm, split]
  omega

end Outset

/-- Objects go from one list to another. -/
theorem Freeing.relink (freeing : Freeing outset live busy pending lists rt)
    {links : Links GCList Address} (holds : links.Holds now.content)
    (same : ∀ q, now.Listed q ↔ lists.Listed q) (stage : outset.Stage live pending now) :
    Freeing outset live busy pending now { rt with links := links } where
  phase := freeing.phase
  holds := holds
  header := fun q isListed => freeing.header q ((same q).mp isListed)
  freed := fun q outside => freeing.freed q fun isListed => outside ((same q).mpr isListed)
  fields := freeing.fields
  nodup := freeing.nodup
  nodup_busy := freeing.nodup_busy
  apart := freeing.apart
  listed_iff := fun q => (same q).trans (freeing.listed_iff q)
  object := freeing.object
  owed_listed := fun q positive => (same q).mpr (freeing.owed_listed q positive)
  owed_live := freeing.owed_live
  owed_busy := freeing.owed_busy
  idle := freeing.idle
  stage := stage

/-- One reference to an object is given up, and the object stays. -/
theorem Freeing.lower (freeing : Freeing outset live busy (p :: pending) lists rt)
    (phase : next.gcPhase = rt.gcPhase) (holds : next.links.Holds now.content)
    (headers : next.headers = Function.update rt.headers p (some (outset.header live pending p)))
    (fields : next.fields = rt.fields) (same : ∀ q, now.Listed q ↔ lists.Listed q)
    (owed : p ∈ live → (outset.type p).isQueued = false → 0 < outset.owed live pending p)
    (stage : outset.Stage live pending now) :
    Freeing outset live busy pending now next where
  phase := phase.trans freeing.phase
  holds := holds
  header := by
    intro q isListed
    rw [headers]
    by_cases isSame : q = p
    · subst isSame
      rw [Function.update_self]
    · rw [Function.update_of_ne isSame, freeing.header q ((same q).mp isListed), Outset.header,
        outset.owed_cons, if_neg isSame, Nat.add_zero, Outset.header]
  freed := by
    intro q outside
    have differ : q ≠ p := by
      rintro rfl
      refine outside ((same q).mpr (freeing.owed_listed q ?_))
      simp [outset.owed_cons]
    rw [headers, Function.update_of_ne differ]
    exact freeing.freed q fun isListed => outside ((same q).mpr isListed)
  fields := by
    intro q
    rw [fields, freeing.fields]
  nodup := freeing.nodup
  nodup_busy := freeing.nodup_busy
  apart := freeing.apart
  listed_iff := by
    intro q
    rw [same, freeing.listed_iff]
  object := freeing.object
  owed_listed := by
    intro q positive
    refine (same q).mpr (freeing.owed_listed q ?_)
    rw [outset.owed_cons]
    omega
  owed_live := by
    intro q member notQueued
    by_cases isSame : q = p
    · subst isSame
      exact owed member notQueued
    · have positive := freeing.owed_live q member notQueued
      rwa [outset.owed_cons, if_neg isSame] at positive
  owed_busy := by
    intro q isBusy condition
    have zero := freeing.owed_busy q isBusy condition
    rw [outset.owed_cons] at zero
    omega
  idle := freeing.idle
  stage := stage

/-- The fields of an object are taken, and so are references to it. -/
theorem Freeing.take (freeing : Freeing outset live busy pending lists rt) (member : p ∈ live)
    {object : GCObject} (isObject : outset.base p = some object) {left : List Address}
    (fewer : ∀ q ≠ p, left.count q = pending.count q)
    (fewerSelf : left.count p ≤ pending.count p)
    (zero : outset.phase ≠ .removeCycles ∨ (outset.type p).isQueued = false →
      outset.owed live left p = 0)
    (unkept : outset.phase = .removeCycles → p ∉ lists.gcObj)
    (unqueued : outset.phase ≠ .removeCycles → (outset.type p).isQueued = true →
      outset.owed live pending p = 0)
    (idle : outset.phase = .none → (outset.type p).isQueued = false)
    (phase : next.gcPhase = rt.gcPhase) (links : next.links = rt.links)
    (headers : next.headers = Function.update rt.headers p (some (outset.header live left p)))
    (fields : next.fields = Function.update rt.fields p none) :
    Freeing outset (live.erase p) (p :: busy) (object.frees.map GCRef.target ++ left) lists
      next := by
  have taken := outset.owed_erase member isObject left
  have same : ∀ q ≠ p, outset.owed live left q = outset.owed live pending q := by
    intro q differ
    simp only [Outset.owed, fewer q differ]
  have less : ∀ q, outset.owed live left q ≤ outset.owed live pending q := by
    intro q
    by_cases isSame : q = p
    · subst isSame
      exact Nat.add_le_add_left fewerSelf _
    · exact (same q isSame).le
  have isListed : lists.Listed p := (freeing.listed_iff p).mpr (.inl member)
  refine
    { phase := phase.trans freeing.phase
      holds := links ▸ freeing.holds
      header := ?_
      freed := ?_
      fields := ?_
      nodup := freeing.nodup.erase p
      nodup_busy := List.nodup_cons.mpr ⟨freeing.apart p member, freeing.nodup_busy⟩
      apart := ?_
      listed_iff := ?_
      object := fun q isLive => freeing.object q (List.mem_of_mem_erase isLive)
      owed_listed := ?_
      owed_live := ?_
      owed_busy := ?_
      idle := ?_
      stage := ?_ }
  · intro q qListed
    rw [headers, Outset.header, Outset.header, taken]
    by_cases isSame : q = p
    · subst isSame
      rw [Function.update_self]
    · rw [Function.update_of_ne isSame, freeing.header q qListed, same q isSame, Outset.header]
  · intro q outside
    have differ : q ≠ p := by
      rintro rfl
      exact outside isListed
    rw [headers, Function.update_of_ne differ]
    exact freeing.freed q outside
  · intro q
    rw [fields]
    by_cases isSame : q = p
    · subst isSame
      rw [Function.update_self, if_neg freeing.nodup.not_mem_erase]
    · simp only [Function.update_of_ne isSame, freeing.fields, List.mem_erase_of_ne isSame]
  · intro q isLive
    rw [freeing.nodup.mem_erase_iff] at isLive
    rw [List.mem_cons, not_or]
    exact ⟨isLive.1, freeing.apart q isLive.2⟩
  · intro q
    rw [freeing.listed_iff, freeing.nodup.mem_erase_iff, List.mem_cons]
    by_cases isSame : q = p
    · subst isSame
      simp [member]
    · simp [isSame]
  · intro q positive
    rw [taken] at positive
    exact freeing.owed_listed q (positive.trans_le (less q))
  · intro q isLive notQueued
    rw [freeing.nodup.mem_erase_iff] at isLive
    rw [taken, same q isLive.1]
    exact freeing.owed_live q isLive.2 notQueued
  · intro q isBusy condition
    rw [taken]
    rcases List.mem_cons.mp isBusy with rfl | isBusy
    · exact zero condition
    · exact Nat.le_zero.mp ((less q).trans (freeing.owed_busy q isBusy condition).le)
  · intro isNone q isBusy
    rcases List.mem_cons.mp isBusy with rfl | isBusy
    · exact idle isNone
    · exact freeing.idle isNone q isBusy
  · have stage := freeing.stage
    have waits (waiting : outset.Waiting live pending lists)
        (notRemoving : outset.phase ≠ .removeCycles) :
        outset.Waiting (live.erase p) (object.frees.map GCRef.target ++ left) lists := by
      refine ⟨waiting.1, fun q => ?_⟩
      rw [waiting.2, taken]
      by_cases isSame : q = p
      · subst isSame
        refine and_congr_right fun _ => and_congr_right fun isQueued => ?_
        exact ⟨fun _ => zero (.inl notRemoving), fun _ => unqueued notRemoving isQueued⟩
      · rw [same q isSame]
    unfold Outset.Stage at stage ⊢
    cases isPhase : outset.phase with
    | none =>
        rw [isPhase] at stage
        exact ⟨waits stage.1 (by simp [isPhase]), stage.2⟩
    | decref =>
        rw [isPhase] at stage
        exact waits stage (by simp [isPhase])
    | removeCycles =>
        rw [isPhase] at stage
        refine ⟨stage.1, fun q isKept => ⟨?_, (stage.2 q isKept).2⟩⟩
        rw [freeing.nodup.mem_erase_iff]
        refine ⟨?_, (stage.2 q isKept).1⟩
        rintro rfl
        exact unkept isPhase isKept

/-- The memory of a busy object that has been taken out of its list is given
back. -/
theorem Freeing.close (freeing : Freeing outset live (p :: busy) pending lists rt)
    (zero : outset.owed live pending p = 0) {links : Links GCList Address}
    (holds : links.Holds (lists.erase p).content)
    (fresh : Links.Fresh (lists.erase p).content p) :
    ∃ next, ({ rt with links := links } : GCRuntime).jsFreeRT p = some next ∧
      Freeing outset live busy pending (lists.erase p) next := by
  have isListed : lists.Listed p := (freeing.listed_iff p).mpr (.inr List.mem_cons_self)
  have header := freeing.header p isListed
  have listed : ∀ q, (lists.erase p).Listed q ↔ lists.Listed q ∧ q ≠ p :=
    fun q => Lists.listed_erase freeing.holds
  have notLive : p ∉ live := fun isLive => freeing.apart p isLive List.mem_cons_self
  have notBusy := (List.nodup_cons.mp freeing.nodup_busy).1
  have runs : ({ rt with links := links } : GCRuntime).jsFreeRT p = some
      { rt with
        links := (links.setNext (.node p) none).setPrev (.node p) none
        headers := Function.update rt.headers p none
        fields := Function.update rt.fields p none } := by
    simp [jsFreeRT, header]
  refine ⟨_, runs, ?_⟩
  refine
    { phase := freeing.phase
      holds := holds.clear fresh
      header := ?_
      freed := ?_
      fields := ?_
      nodup := freeing.nodup
      nodup_busy := (List.nodup_cons.mp freeing.nodup_busy).2
      apart := fun q isLive isBusy => freeing.apart q isLive (List.mem_cons_of_mem _ isBusy)
      listed_iff := ?_
      object := freeing.object
      owed_listed := ?_
      owed_live := freeing.owed_live
      owed_busy := fun q isBusy => freeing.owed_busy q (List.mem_cons_of_mem _ isBusy)
      idle := fun isNone q isBusy => freeing.idle isNone q (List.mem_cons_of_mem _ isBusy)
      stage := ?_ }
  · intro q isListed
    rw [listed] at isListed
    exact (Function.update_of_ne isListed.2 _ _).trans (freeing.header q isListed.1)
  · intro q outside
    by_cases isSame : q = p
    · subst isSame
      exact Function.update_self ..
    · refine (Function.update_of_ne isSame _ _).trans (freeing.freed q fun isListed => ?_)
      exact outside ((listed q).mpr ⟨isListed, isSame⟩)
  · intro q
    by_cases isSame : q = p
    · subst isSame
      rw [if_neg notLive]
      exact Function.update_self ..
    · exact (Function.update_of_ne isSame _ _).trans (freeing.fields q)
  · intro q
    rw [listed, freeing.listed_iff, List.mem_cons]
    by_cases isSame : q = p
    · subst isSame
      simp [notLive, notBusy]
    · simp [isSame]
  · intro q positive
    refine (listed q).mpr ⟨freeing.owed_listed q positive, ?_⟩
    rintro rfl
    omega
  · have stage := freeing.stage
    have waits (waiting : outset.Waiting live pending lists) :
        outset.Waiting live pending (lists.erase p) := by
      refine ⟨by simp [Lists.erase, waiting.1], fun q => ?_⟩
      have inZero : q ∈ (lists.erase p).zero ↔ q ≠ p ∧ q ∈ lists.zero :=
        (Lists.nodup_elements freeing.holds .gcZeroRefCountList).mem_erase_iff
      rw [inZero, waiting.2, listed]
      tauto
    unfold Outset.Stage at stage ⊢
    cases isPhase : outset.phase with
    | none =>
        rw [isPhase] at stage
        exact ⟨waits stage.1, by simp [Lists.erase, stage.2]⟩
    | decref =>
        rw [isPhase] at stage
        exact waits stage
    | removeCycles =>
        rw [isPhase] at stage
        have notKept : p ∉ lists.gcObj := fun isKept => notLive (stage.2 p isKept).1
        have kept : (lists.erase p).gcObj = lists.gcObj := List.erase_of_not_mem notKept
        refine ⟨by simp [Lists.erase, stage.1], ?_⟩
        rw [kept]
        exact stage.2

/-! ## Giving up references -/

theorem Freeing.header_pending (freeing : Freeing outset live busy (p :: pending) lists rt) :
    lists.Listed p ∧
      rt.headers p = some ⟨outset.owed live pending p + 1, outset.type p, outset.mark p⟩ := by
  have owed : outset.owed live (p :: pending) p = outset.owed live pending p + 1 := by
    rw [outset.owed_cons, if_pos rfl]
  have isListed := freeing.owed_listed p (by omega)
  refine ⟨isListed, ?_⟩
  rw [freeing.header p isListed, Outset.header, owed]
  rfl

/-- A reference that is not the last one is given up. -/
theorem Freeing.lower_pos (freeing : Freeing outset live busy (p :: pending) lists rt)
    (positive : 0 < outset.owed live pending p) :
    Freeing outset live busy pending lists
      (rt.setHeader p (outset.header live pending p)) := by
  refine freeing.lower rfl freeing.holds rfl rfl (fun _ => Iff.rfl) (fun _ _ => positive) ?_
  have stage := freeing.stage
  have waits (waiting : outset.Waiting live (p :: pending) lists) :
      outset.Waiting live pending lists := by
    refine ⟨waiting.1, fun q => ?_⟩
    rw [waiting.2, outset.owed_cons]
    by_cases isSame : q = p
    · subst isSame
      simp only [if_true]
      omega
    · rw [if_neg isSame, Nat.add_zero]
  unfold Outset.Stage at stage ⊢
  cases isPhase : outset.phase with
  | none =>
      rw [isPhase] at stage
      exact ⟨waits stage.1, stage.2⟩
  | decref =>
      rw [isPhase] at stage
      exact waits stage
  | removeCycles =>
      rw [isPhase] at stage
      exact stage

/-- The last reference to an object that is freed later is given up. -/
theorem Freeing.queue (freeing : Freeing outset live busy (p :: pending) lists rt)
    (isDecref : outset.phase = .decref) (queued : (outset.type p).isQueued = true)
    (zero : outset.owed live pending p = 0) :
    ∃ links now, (∀ before : GCRuntime, before.links = rt.links →
        before.moveFront p .gcZeroRefCountList = some { before with links := links }) ∧
      Freeing outset live busy pending now
        { rt.setHeader p (outset.header live pending p) with links := links } ∧
      Follows outset busy live live lists now := by
  have isListed := freeing.header_pending.1
  have stage := freeing.stage
  rw [Outset.Stage, isDecref] at stage
  let now : Lists := { lists.erase p with zero := p :: (lists.erase p).zero }
  have isZero : (lists.erase p).content .gcZeroRefCountList = some (lists.erase p).zero := rfl
  obtain ⟨links, moves, holds⟩ := exists_moveFront freeing.holds isListed isZero
  rw [Lists.update_zero] at holds
  have listed : ∀ q, now.Listed q ↔ lists.Listed q := by
    intro q
    rw [Lists.listed_update rfl (Lists.update_zero (lists.erase p) _).symm
      fun q => List.mem_cons, Lists.listed_erase freeing.holds]
    by_cases isSame : q = p
    · subst isSame
      simp [isListed]
    · simp [isSame]
  have notWaiting : p ∉ lists.zero := by
    rw [stage.2, outset.owed_cons, if_pos rfl]
    omega
  refine ⟨links, now, moves, freeing.lower rfl holds rfl rfl listed (by simp [queued]) ?_, ?_⟩
  · rw [Outset.Stage, isDecref]
    refine ⟨by simp [now, Lists.erase, stage.1], fun q => ?_⟩
    rw [listed]
    simp only [now, Lists.erase, List.erase_of_not_mem notWaiting, List.mem_cons, stage.2,
      outset.owed_cons]
    by_cases isSame : q = p
    · subst isSame
      simp [isListed, queued, zero]
    · simp [isSame]
  · refine ⟨.refl _, ?_, by simp [isDecref]⟩
    intro q isBusy list member
    have differ : q ≠ p := by
      rintro rfl
      have none := freeing.owed_busy q isBusy (.inl (by simp [isDecref]))
      rw [outset.owed_cons, if_pos rfl] at none
      omega
    cases list with
    | gcObjList => exact (List.mem_erase_of_ne differ).mpr member
    | tmpObjList => simp [Lists.elements, Lists.content, stage.1] at member
    | gcZeroRefCountList =>
        exact List.mem_cons_of_mem _ ((List.mem_erase_of_ne differ).mpr member)

/-- Where cycles are removed, an object without references stays where it is. -/
theorem Freeing.keep (freeing : Freeing outset live busy (p :: pending) lists rt)
    (isRemoving : outset.phase = .removeCycles) (queued : (outset.type p).isQueued = true) :
    Freeing outset live busy pending lists
      (rt.setHeader p (outset.header live pending p)) := by
  refine freeing.lower rfl freeing.holds rfl rfl (fun _ => Iff.rfl) (by simp [queued]) ?_
  have stage := freeing.stage
  rw [Outset.Stage, isRemoving] at stage ⊢
  exact stage

namespace Outset

/-- Objects are being freed one after the other. -/
def decref (outset : Outset) : Outset :=
  { outset with phase := .decref }

@[simp]
theorem phase_decref (outset : Outset) : outset.decref.phase = .decref :=
  rfl

/-- All objects that wait are freed, as long as there are fewer than `bound`
others. -/
def Drains (outset : Outset) (bound : Nat)
    (freeZeroRefcount : GCRuntime → Option GCRuntime) : Prop :=
  outset.phase = .none →
    ∀ {live busy pending : List Address} {lists : Lists} {rt : GCRuntime},
      Freeing outset.decref live busy pending lists { rt with gcPhase := .decref } →
        (∀ p ∈ busy, (outset.type p).isQueued = false) → live.length < bound →
          ∃ next after now, freeZeroRefcount rt = some next ∧
            Freeing outset after busy pending now next ∧
            Follows outset busy live after lists now

theorem Drains.of_ne {free : GCRuntime → Option GCRuntime} {bound : Nat}
    (isBusy : outset.phase ≠ .none) : outset.Drains bound free :=
  fun isNone => absurd isNone isBusy

end Outset

theorem Freeing.decref (freeing : Freeing outset live busy pending lists rt)
    (isNone : outset.phase = .none) :
    Freeing outset.decref live busy pending lists { rt with gcPhase := .decref } where
  phase := rfl
  holds := freeing.holds
  header := freeing.header
  freed := freeing.freed
  fields := freeing.fields
  nodup := freeing.nodup
  nodup_busy := freeing.nodup_busy
  apart := freeing.apart
  listed_iff := freeing.listed_iff
  object := freeing.object
  owed_listed := freeing.owed_listed
  owed_live := freeing.owed_live
  owed_busy := fun q isBusy _ => freeing.owed_busy q isBusy (.inl (by simp [isNone]))
  idle := by simp
  stage := by
    have stage := freeing.stage
    rw [Outset.Stage, isNone] at stage
    exact stage.1

section Functions

variable {bound : Nat} {freeZeroRefcount : GCRuntime → Option GCRuntime}
  (drains : outset.Drains bound freeZeroRefcount)
include drains

/-- The last reference to an object that waits to be freed is given up. -/
theorem Freeing.exists_queueZeroRefcount
    (freeing : Freeing outset live busy (p :: pending) lists rt)
    (queued : (outset.type p).isQueued = true) (zero : outset.owed live pending p = 0)
    (enough : live.length < bound) :
    ∃ next after now, queueZeroRefcount freeZeroRefcount p
        (rt.setHeader p (outset.header live pending p)) = some next ∧
      Freeing outset after busy pending now next ∧ Follows outset busy live after lists now := by
  let lowered := rt.setHeader p (outset.header live pending p)
  have phase : lowered.gcPhase = outset.phase := freeing.phase
  cases isPhase : outset.phase with
  | none =>
      obtain ⟨links, between, moves, queue, follows⟩ :=
        (freeing.decref isPhase).queue rfl queued zero
      have ready : Freeing outset.decref live busy pending between
          { ({ lowered with links := links } : GCRuntime) with gcPhase := .decref } := queue
      obtain ⟨next, after, now, runs, freed, followsAll⟩ :=
        drains isPhase ready (freeing.idle isPhase) enough
      refine ⟨next, after, now, ?_, freed, ?_⟩
      · exact (queueZeroRefcount_none (phase.trans isPhase) (moves lowered rfl)).trans runs
      · have started : Follows outset busy live live lists between :=
          ⟨follows.live, follows.busy, by simp [isPhase]⟩
        exact started.trans followsAll
  | decref =>
      obtain ⟨links, now, moves, queue, follows⟩ := freeing.queue isPhase queued zero
      exact ⟨{ lowered with links := links }, live, now,
        queueZeroRefcount_decref (phase.trans isPhase) (moves lowered rfl), queue, follows⟩
  | removeCycles =>
      exact ⟨lowered, live, lists, queueZeroRefcount_removeCycles (phase.trans isPhase),
        freeing.keep isPhase queued, .refl⟩

end Functions

/-- One reference to an object is given up, and what that frees is freed. -/
def Frees (outset : Outset) (bound : Nat) (p : Address)
    (free : GCRuntime → Option GCRuntime) : Prop :=
  ∀ {live busy pending : List Address} {lists : Lists} {rt : GCRuntime},
    Freeing outset live busy (p :: pending) lists rt → live.length < bound →
      ∃ next after now, free rt = some next ∧ Freeing outset after busy pending now next ∧
        Follows outset busy live after lists now

section Functions

variable {bound : Nat} {freeZeroRefcount : GCRuntime → Option GCRuntime}
  (drains : outset.Drains bound freeZeroRefcount)
include drains

theorem frees_jsFreeValueRT (queued : (outset.type p).isQueued = true) :
    Frees outset bound p (jsFreeValueRT freeZeroRefcount p) := by
  intro live busy pending lists rt freeing enough
  simp only [jsFreeValueRT, freeing.header_pending.2, Option.bind_eq_bind, Option.bind_some,
    add_sub_cancel_right]
  rcases Nat.eq_zero_or_pos (outset.owed live pending p) with zero | positive
  · rw [if_pos (by omega)]
    exact freeing.exists_queueZeroRefcount drains queued zero enough
  · rw [if_neg (by omega)]
    exact ⟨_, live, lists, rfl, freeing.lower_pos positive, .refl⟩

theorem frees_asyncFuncFree (queued : (outset.type p).isQueued = true) :
    Frees outset bound p (asyncFuncFree freeZeroRefcount p) := by
  intro live busy pending lists rt freeing enough
  simp only [asyncFuncFree, freeing.header_pending.2, Option.bind_eq_bind, Option.bind_some,
    add_sub_cancel_right]
  rcases Nat.eq_zero_or_pos (outset.owed live pending p) with zero | positive
  · rw [if_pos (by omega)]
    exact freeing.exists_queueZeroRefcount drains queued zero enough
  · rw [if_neg (by omega)]
    exact ⟨_, live, lists, rfl, freeing.lower_pos positive, .refl⟩

end Functions

/-- The references of an object are given up one after the other. -/
theorem Freeing.frees_refs {refs : List GCRef} {free : GCRef → GCRuntime → Option GCRuntime}
    {bound : Nat} (each : ∀ ref ∈ refs, Frees outset bound ref.target (free ref))
    (freeing : Freeing outset live busy (refs.map GCRef.target ++ pending) lists rt)
    (enough : live.length < bound) :
    ∃ next after now, refs.foldlM (fun rt ref => free ref rt) rt = some next ∧
      Freeing outset after busy pending now next ∧ Follows outset busy live after lists now := by
  induction refs generalizing live lists rt with
  | nil => exact ⟨rt, live, lists, rfl, freeing, .refl⟩
  | cons ref rest ih =>
      obtain ⟨middle, left, between, runs, freed, follows⟩ :=
        each ref List.mem_cons_self freeing enough
      obtain ⟨next, after, now, runsRest, freedRest, followsRest⟩ :=
        ih (fun other member => each other (List.mem_cons_of_mem _ member)) freed
          (follows.live.length_le.trans_lt enough)
      refine ⟨next, after, now, ?_, freedRest, follows.trans followsRest⟩
      rw [List.foldlM_cons, runs]
      exact runsRest

/-- An object that is kept is referred to where cycles are removed. -/
theorem Freeing.not_kept (freeing : Freeing outset live busy pending lists rt)
    {left : List Address} (zero : outset.owed live left p = 0)
    (isRemoving : outset.phase = .removeCycles) : p ∉ lists.gcObj := by
  intro isKept
  have stage := freeing.stage
  rw [Outset.Stage, isRemoving] at stage
  have positive := (stage.2 p isKept).2
  have fewer := references_le (children outset.base)
    (Lists.nodup_elements freeing.holds .gcObjList) (fun q member => (stage.2 q member).1) p
  unfold Outset.owed at zero
  unfold Lists.elements Lists.content at fewer
  simp only [Option.getD_some] at fewer
  omega

/-- An object that has been busy and is in no list now. -/
theorem Follows.erase (follows : Follows outset (p :: busy) (live.erase p) after lists now)
    (notBusy : p ∉ busy) (unkept : outset.phase = .removeCycles → p ∉ lists.gcObj) :
    Follows outset busy live after lists (now.erase p) where
  live := follows.live.trans List.erase_sublist
  busy := by
    intro q isBusy list member
    have differ : q ≠ p := by
      rintro rfl
      exact notBusy isBusy
    rw [Lists.elements_erase, List.mem_erase_of_ne differ]
    exact follows.busy q (List.mem_cons_of_mem _ isBusy) list member
  removing := by
    intro isRemoving
    obtain ⟨same, sublist⟩ := follows.removing isRemoving
    refine ⟨?_, fun list => ?_⟩
    · rw [← same] at unkept
      exact (List.erase_of_not_mem (unkept isRemoving)).trans same
    · rw [Lists.elements_erase]
      exact List.erase_sublist.trans (sublist list)

/-- The last reference to an object that does not wait is given up. -/
theorem Freeing.frees_now {free : GCRef → GCRuntime → Option GCRuntime} {object : GCObject}
    (freeing : Freeing outset live busy (p :: pending) lists rt)
    (notQueued : (outset.type p).isQueued = false) (zero : outset.owed live pending p = 0)
    (isLive : p ∈ live) (isObject : outset.base p = some object) {bound : Nat}
    (each : ∀ ref ∈ object.frees, Frees outset bound ref.target (free ref))
    (enough : live.length < bound) :
    ∃ next after now, freeNow free p (rt.setHeader p (outset.header live pending p)) = some next ∧
      Freeing outset after busy pending now next ∧ Follows outset busy live after lists now := by
  have notBusy := freeing.apart p isLive
  have unkept := freeing.not_kept zero
  let taken : GCRuntime := { rt.setHeader p (outset.header live pending p) with
    fields := Function.update rt.fields p none }
  have start : Freeing outset (live.erase p) (p :: busy) (object.frees.map GCRef.target ++ pending)
      lists taken := by
    refine freeing.take isLive isObject ?_ ?_ (fun _ => zero) unkept ?_ (fun _ => notQueued)
      rfl rfl rfl rfl
    · exact fun q differ => (List.count_cons_of_ne differ.symm).symm
    · exact List.count_le_count_cons
    · simp [notQueued]
  obtain ⟨middle, after, now, runs, freed, follows⟩ := start.frees_refs each
    (List.erase_sublist.length_le.trans_lt enough)
  have listed : now.Listed p := (freed.listed_iff p).mpr (.inr List.mem_cons_self)
  obtain ⟨links, deletes, holds, fresh⟩ := Lists.exists_listDel freed.holds listed
  obtain ⟨next, frees, done⟩ :=
    freed.close (freed.owed_busy p List.mem_cons_self (.inr notQueued)) holds fresh
  refine ⟨next, after, now.erase p, ?_, done, follows.erase notBusy unkept⟩
  have isFields : rt.fields p = some object := by rw [freeing.fields, if_pos isLive, isObject]
  have runsRefs : object.frees.foldlM (fun rt ref => free ref rt) taken = some middle := runs
  simp only [freeNow, setHeader, isFields, Option.bind_eq_bind, Option.bind_some]
  simp only [taken, setHeader] at runsRefs
  rw [runsRefs]
  simpa [removeGCObject, deletes] using frees

/-! ## Shapes, variables and contexts -/

/-- An object that does not wait is there while references to it are. -/
theorem Freeing.exists_object (freeing : Freeing outset live busy (p :: pending) lists rt)
    (notQueued : (outset.type p).isQueued = false) :
    p ∈ live ∧ ∃ object, outset.base p = some object ∧ object.gcObjType = outset.type p ∧
      ∀ ref ∈ object.frees, ref.Suits (outset.type ref.target) := by
  have isLive : p ∈ live := by
    refine ((freeing.listed_iff p).mp freeing.header_pending.1).resolve_right fun isBusy => ?_
    have none := freeing.owed_busy p isBusy (.inr notQueued)
    rw [outset.owed_cons, if_pos rfl] at none
    omega
  obtain ⟨object, isObject, isType, suits⟩ := freeing.object p isLive
  exact ⟨isLive, object, isObject, isType, fun ref member =>
    suits ref (object.frees_perm_marks.mem_iff.mp member)⟩

section Functions

variable {bound : Nat} {freeZeroRefcount : GCRuntime → Option GCRuntime}
  (drains : outset.Drains bound freeZeroRefcount)
include drains

theorem frees_freeValueRef {ref : GCRef} (suits : ref.Suits (outset.type ref.target))
    (kind : (∃ q, ref = .value q) ∨ ∃ q, ref = .asyncFunc q) :
    Frees outset bound ref.target (freeValueRef freeZeroRefcount ref) := by
  rcases kind with ⟨q, rfl⟩ | ⟨q, rfl⟩
  · exact frees_jsFreeValueRT drains (GCRef.isQueued_of_value suits)
  · exact frees_asyncFuncFree drains (GCRef.isQueued_of_asyncFunc suits)

theorem frees_jsFreeShape (isShape : outset.type p = .shape) :
    Frees outset bound p (jsFreeShape freeZeroRefcount p) := by
  intro live busy pending lists rt freeing enough
  have notQueued : (outset.type p).isQueued = false := by rw [isShape]; rfl
  simp only [jsFreeShape, freeing.header_pending.2, Option.bind_eq_bind, Option.bind_some,
    add_sub_cancel_right]
  rcases Nat.eq_zero_or_pos (outset.owed live pending p) with zero | positive
  · obtain ⟨isLive, object, isObject, isType, suits⟩ := freeing.exists_object notQueued
    obtain ⟨next, after, now, runs, freed, follows⟩ := freeing.frees_now notQueued zero isLive
      isObject (fun ref member => frees_freeValueRef drains (suits ref member)
        (object.frees_of_leaf (.inl (isType.trans isShape)) member)) enough
    refine ⟨next, after, now, ?_, freed, follows⟩
    simpa [guard, zero, Outset.header] using runs
  · rw [if_neg (by omega)]
    exact ⟨_, live, lists, rfl, freeing.lower_pos positive, .refl⟩

theorem frees_freeVarRef (isVarRef : outset.type p = .varRef) :
    Frees outset bound p (freeVarRef freeZeroRefcount p) := by
  intro live busy pending lists rt freeing enough
  have notQueued : (outset.type p).isQueued = false := by rw [isVarRef]; rfl
  have positive : (0 : Int) < outset.owed live pending p + 1 := by omega
  simp only [freeVarRef, freeing.header_pending.2, Option.bind_eq_bind, Option.bind_some,
    add_sub_cancel_right, guard, if_pos positive, Option.pure_def]
  rcases Nat.eq_zero_or_pos (outset.owed live pending p) with zero | positive
  · obtain ⟨isLive, object, isObject, isType, suits⟩ := freeing.exists_object notQueued
    obtain ⟨next, after, now, runs, freed, follows⟩ := freeing.frees_now notQueued zero isLive
      isObject (fun ref member => frees_freeValueRef drains (suits ref member)
        (object.frees_of_leaf (.inr (isType.trans isVarRef)) member)) enough
    refine ⟨next, after, now, ?_, freed, follows⟩
    simpa [zero, Outset.header] using runs
  · rw [if_neg (by omega)]
    exact ⟨_, live, lists, rfl, freeing.lower_pos positive, .refl⟩

theorem frees_freeContextRef {ref : GCRef} (suits : ref.Suits (outset.type ref.target))
    (kind : (∃ q, ref = .value q) ∨ (∃ q, ref = .varRef q) ∨ ∃ q, ref = .shape q) :
    Frees outset bound ref.target (freeContextRef freeZeroRefcount ref) := by
  rcases kind with ⟨q, rfl⟩ | ⟨q, rfl⟩ | ⟨q, rfl⟩
  · exact frees_jsFreeValueRT drains (GCRef.isQueued_of_value suits)
  · exact frees_freeVarRef drains suits
  · exact frees_jsFreeShape drains suits

theorem frees_jsFreeContext (isContext : outset.type p = .jsContext) :
    Frees outset bound p (jsFreeContext freeZeroRefcount p) := by
  intro live busy pending lists rt freeing enough
  have notQueued : (outset.type p).isQueued = false := by rw [isContext]; rfl
  simp only [jsFreeContext, freeing.header_pending.2, Option.bind_eq_bind, Option.bind_some,
    add_sub_cancel_right]
  rcases Nat.eq_zero_or_pos (outset.owed live pending p) with zero | positive
  · obtain ⟨isLive, object, isObject, isType, suits⟩ := freeing.exists_object notQueued
    obtain ⟨next, after, now, runs, freed, follows⟩ := freeing.frees_now notQueued zero isLive
      isObject (fun ref member => frees_freeContextRef drains (suits ref member)
        (object.frees_of_context (isType.trans isContext) member)) enough
    refine ⟨next, after, now, ?_, freed, follows⟩
    simpa [guard, zero, Outset.header] using runs
  · rw [if_pos (by omega)]
    exact ⟨_, live, lists, rfl, freeing.lower_pos positive, .refl⟩

/-- A reference of any kind is given up. -/
theorem frees_freeRef {ref : GCRef} (suits : ref.Suits (outset.type ref.target)) :
    Frees outset bound ref.target (freeRef freeZeroRefcount ref) := by
  cases ref with
  | value q => exact frees_jsFreeValueRT drains (GCRef.isQueued_of_value suits)
  | shape q => exact frees_jsFreeShape drains suits
  | varRef q => exact frees_freeVarRef drains suits
  | asyncFunc q => exact frees_asyncFuncFree drains (GCRef.isQueued_of_asyncFunc suits)
  | context q => exact frees_jsFreeContext drains suits

end Functions

/-! ## Objects that wait -/

/-- The fields of an object are freed; where cycles are removed, its memory is
kept while others refer to it. -/
theorem Freeing.exists_freeGCObject (freeing : Freeing outset live busy pending lists rt)
    (isBusy : outset.phase ≠ .none) (freeZeroRefcount : GCRuntime → Option GCRuntime)
    (isLive : p ∈ live) (queued : (outset.type p).isQueued = true)
    (zero : outset.phase = .decref → outset.owed live pending p = 0)
    (unkept : outset.phase = .removeCycles → p ∉ lists.gcObj) :
    ∃ next after between now, freeGCObject freeZeroRefcount p rt = some next ∧
      Follows outset (p :: busy) (live.erase p) after lists between ∧
      (Freeing outset after busy pending now next ∧ now = between.erase p ∨
        outset.phase = .removeCycles ∧ Freeing outset after (p :: busy) pending now next ∧
          now = { between.erase p with zero := (between.erase p).zero ++ [p] }) := by
  obtain ⟨object, isObject, isType, suits⟩ := freeing.object p isLive
  have header := freeing.header p ((freeing.listed_iff p).mpr (.inl isLive))
  let taken : GCRuntime := { rt with fields := Function.update rt.fields p none }
  have start : Freeing outset (live.erase p) (p :: busy) (object.frees.map GCRef.target ++ pending)
      lists taken := by
    have notRemoving : outset.phase ≠ .removeCycles → outset.owed live pending p = 0 := by
      intro differ
      cases isPhase : outset.phase with
      | none => exact absurd isPhase isBusy
      | decref => exact zero isPhase
      | removeCycles => exact absurd isPhase differ
    refine freeing.take isLive isObject (fun _ _ => rfl) le_rfl ?_ unkept (fun differ _ =>
      notRemoving differ) (fun isNone => absurd isNone isBusy) rfl rfl ?_ rfl
    · rintro (differ | notQueued)
      · exact notRemoving differ
      · simp [queued] at notQueued
    · rw [← header, Function.update_eq_self]
  have drains : outset.Drains (live.erase p).length.succ freeZeroRefcount := .of_ne isBusy
  obtain ⟨middle, after, between, runs, freed, follows⟩ := start.frees_refs (fun ref member =>
    frees_freeRef drains (suits ref (object.frees_perm_marks.mem_iff.mp member)))
      (Nat.lt_succ_self _)
  have listed : between.Listed p := (freed.listed_iff p).mpr (.inr List.mem_cons_self)
  obtain ⟨links, deletes, holds, fresh⟩ := Lists.exists_listDel freed.holds listed
  have isFields : rt.fields p = some object := by rw [freeing.fields, if_pos isLive, isObject]
  have runsAll : freeGCObject freeZeroRefcount p rt = finishFree p middle := by
    have types : (outset.header live pending p).gcObjType = outset.type p := rfl
    have runsRefs : object.frees.foldlM (fun rt ref => freeRef freeZeroRefcount ref rt) taken =
        some middle := runs
    unfold freeGCObject
    simp only [header, isFields, Option.bind_eq_bind, Option.bind_some, types]
    cases isKind : outset.type p with
    | jsObject | functionBytecode | asyncFunction =>
        simp only [taken] at runsRefs
        simp only [runsRefs, Option.bind_some]
    | _ => simp [isKind, GCObjType.isQueued] at queued
  have headerMiddle := freed.header p listed
  have phase : middle.gcPhase = outset.phase := freed.phase
  rw [runsAll]
  by_cases waits : outset.phase = .removeCycles ∧ outset.owed after pending p ≠ 0
  · obtain ⟨joined, adds, holdsJoined⟩ : ∃ joined, links.listAddTail p .gcZeroRefCountList =
        some joined ∧ joined.Holds
          ({ between.erase p with zero := (between.erase p).zero ++ [p] } : Lists).content := by
      rw [← Lists.update_zero]
      exact holds.listAddTail rfl fresh
    refine ⟨{ middle with links := joined }, after, between, _, ?_, follows,
      .inr ⟨waits.1, freed.relink holdsJoined ?_ ?_, rfl⟩⟩
    · have refers : (outset.header after pending p).refCount ≠ 0 := by
        have positive := waits.2
        simp only [Outset.header]
        omega
      simp [finishFree, removeGCObject, deletes, headerMiddle, phase, waits.1, refers, adds]
    · intro q
      rw [Lists.listed_update (p := p) rfl (Lists.update_zero (between.erase p) _).symm
        (by simp [or_comm]), Lists.listed_erase freed.holds]
      by_cases isSame : q = p
      · subst isSame
        simp [listed]
      · simp [isSame]
    · have stage := freed.stage
      have notLive : p ∉ after := fun isAfter => freed.apart p isAfter List.mem_cons_self
      rw [Outset.Stage, waits.1] at stage ⊢
      have notKept : p ∉ between.gcObj := fun isKept => notLive (stage.2 p isKept).1
      have kept : (between.erase p).gcObj = between.gcObj := List.erase_of_not_mem notKept
      refine ⟨by simp [Lists.erase, stage.1], ?_⟩
      rw [kept]
      exact stage.2
  · have none : outset.owed after pending p = 0 := by
      by_cases isPhase : outset.phase = .removeCycles
      · by_contra refers
        exact waits ⟨isPhase, refers⟩
      · exact freed.owed_busy p List.mem_cons_self (.inl isPhase)
    obtain ⟨next, frees, done⟩ := freed.close none holds fresh
    refine ⟨next, after, between, _, ?_, follows, .inl ⟨done, rfl⟩⟩
    have stays : ¬(middle.gcPhase = .removeCycles ∧
        (outset.header after pending p).refCount ≠ 0) := by
      simp [Outset.header, none]
    simp only [finishFree, removeGCObject, deletes, headerMiddle, Option.bind_eq_bind,
      Option.bind_some, Option.pure_def, if_neg stays]
    exact frees

end GCRuntime

end Jib.QuickJS
