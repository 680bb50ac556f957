import Jib.QuickJSFreeing

/-!
# The heap of QuickJS between calls

Between calls every count of an object is the number of references to it, those
from outside and those of objects, and nothing that an object refers to has been
freed.  Giving up a reference, of any kind, leaves the heap so.
-/

namespace Jib.QuickJS.GCRuntime

open LinkedLists CycleCollection

variable {outset : Outset} {live busy pending : List Address} {lists : Lists} {rt : GCRuntime}
  {p : Address}

/-! ## Freeing what waits -/

/-- All that waited has been freed. -/
theorem Freeing.of_decref (freeing : Freeing outset.decref live busy pending lists rt)
    (isNone : outset.phase = .none) (idle : ∀ p ∈ busy, (outset.type p).isQueued = false)
    (nothing : lists.zero = []) :
    Freeing outset live busy pending lists { rt with gcPhase := .none } where
  phase := isNone.symm
  holds := freeing.holds
  header := freeing.header
  freed := freeing.freed
  fields := freeing.fields
  nodup := freeing.nodup
  nodup_busy := freeing.nodup_busy
  apart := freeing.apart
  listed_iff := freeing.listed_iff
  object := freeing.object
  owed_listed := freeing.owed_listed
  owed_live := freeing.owed_live
  owed_busy := fun q isBusy _ => freeing.owed_busy q isBusy (.inl (by simp))
  idle := fun _ => idle
  stage := by
    rw [Outset.Stage, isNone]
    exact ⟨freeing.stage, nothing⟩

theorem Lists.zero_eq_nil {links : Links GCList Address} (holds : links.Holds lists.content)
    (isEmpty : links.next (.head .gcZeroRefCountList) = some (.head .gcZeroRefCountList)) :
    lists.zero = [] := by
  have isContent : lists.content .gcZeroRefCountList = some lists.zero := rfl
  have first := holds.next_head isContent
  cases isZero : lists.zero with
  | nil => rfl
  | cons node rest => simp [isEmpty, isZero, Links.firstCell] at first

/-- One object that waits is freed. -/
theorem Freeing.exists_freeZeroRefcountBody
    (freeing : Freeing outset live busy pending lists rt) (isDecref : outset.phase = .decref)
    (idle : ∀ p ∈ busy, (outset.type p).isQueued = false) (waits : p ∈ lists.zero) :
    ∃ next after now, freeZeroRefcountBody p rt = some next ∧ after.length < live.length ∧
      Freeing outset after busy pending now next ∧ Follows outset busy live after lists now := by
  have stage := freeing.stage
  rw [Outset.Stage, isDecref] at stage
  obtain ⟨isListed, queued, zero⟩ := (stage.2 p).mp waits
  have notBusy : p ∉ busy := fun isBusy => by simp [idle p isBusy] at queued
  have isLive : p ∈ live := ((freeing.listed_iff p).mp isListed).resolve_right notBusy
  have unkept : outset.phase = .removeCycles → p ∉ lists.gcObj := by simp [isDecref]
  obtain ⟨next, after, between, now, runs, follows, result⟩ := freeing.exists_freeGCObject
    (by simp [isDecref]) (fun _ => none) isLive queued (fun _ => zero) unkept
  obtain ⟨freed, rfl⟩ := result.resolve_right (by simp [isDecref])
  refine ⟨next, after, between.erase p, ?_, ?_, freed, follows.erase notBusy unkept⟩
  · have header := freeing.header p isListed
    have count : (outset.header live pending p).refCount = 0 := by simp [Outset.header, zero]
    simp only [freeZeroRefcountBody, header, Option.bind_eq_bind, Option.bind_some, guard, count,
      if_true, Option.pure_def]
    exact runs
  · have shorter := List.length_erase_of_mem isLive
    have positive := List.length_pos_of_mem isLive
    have fewer := follows.live.length_le
    omega

theorem drains_freeZeroRefcount (outset : Outset) (bound : Nat) :
    outset.Drains bound (freeZeroRefcount bound) := by
  intro isNone live busy pending lists rt freeing idle enough
  let invariant (size : Nat) (state : GCRuntime) : Prop := ∃ left now, left.length = size ∧
    Freeing outset.decref left busy pending now state ∧ Follows outset busy live left lists now
  have step : ∀ size state, invariant size state →
      state.links.next (.head .gcZeroRefCountList) = some (.head .gcZeroRefCountList) ∨
        ∃ node after left, state.links.next (.head .gcZeroRefCountList) = some (.node node) ∧
          freeZeroRefcountBody node state = some after ∧ invariant left after ∧ left < size := by
    rintro size state ⟨left, now, rfl, freed, follows⟩
    have isContent : now.content .gcZeroRefCountList = some now.zero := rfl
    have first := freed.holds.next_head isContent
    cases isZero : now.zero with
    | nil => exact .inl (by rw [first, isZero]; rfl)
    | cons node rest =>
        obtain ⟨next, after, later, runs, less, frees, goesOn⟩ :=
          freed.exists_freeZeroRefcountBody rfl idle (by rw [isZero]; exact List.mem_cons_self)
        refine .inr ⟨node, next, _, by rw [first, isZero]; rfl, runs,
          ⟨after, later, rfl, frees, ?_⟩, less⟩
        exact follows.trans ⟨goesOn.live, goesOn.busy, by simp [isNone]⟩
  obtain ⟨after, size, runs, ⟨left, now, -, freed, follows⟩, isEmpty⟩ :=
    listDrain_of_steps step ⟨live, lists, rfl, freeing, .refl⟩ enough
  have nothing := Lists.zero_eq_nil freed.holds isEmpty
  refine ⟨{ after with gcPhase := .none }, left, now, ?_, freed.of_decref isNone idle nothing,
    follows⟩
  rw [freeZeroRefcount, runs]
  rfl

/-! ## Between calls -/

/-- The type of an object that has its fields. -/
def typeOf (fields : Address → Option GCObject) (p : Address) : GCObjType :=
  ((fields p).map GCObject.gcObjType).getD .jsObject

theorem typeOf_of_fields {fields : Address → Option GCObject} {object : GCObject}
    (isObject : fields p = some object) : typeOf fields p = object.gcObjType := by
  rw [typeOf, isObject]
  rfl

/-- The references to an object, where `external` counts those from outside. -/
def counted (external : Address → Nat) (objects : List Address)
    (fields : Address → Option GCObject) (p : Address) : Nat :=
  external p + references (children fields) objects p

/-- The objects are those in `gc_obj_list`, the counts say how many references
there are, and every reference is to an object of its type. -/
structure Sound (external : Address → Nat) (objects : List Address) (rt : GCRuntime) : Prop where
  phase : rt.gcPhase = .none
  holds : rt.links.Holds (⟨objects, none, []⟩ : Lists).content
  object : ∀ p ∈ objects, ∃ object, rt.fields p = some object ∧
    rt.headers p = some ⟨counted external objects rt.fields p, object.gcObjType, false⟩ ∧
      ∀ ref ∈ object.marks, ∃ target, rt.fields ref.target = some target ∧
        ref.Suits target.gcObjType
  freed : ∀ p ∉ objects, rt.headers p = none ∧ rt.fields p = none
  positive : ∀ p ∈ objects, 0 < counted external objects rt.fields p
  outside : ∀ p, 0 < external p → p ∈ objects

/-- What stays the same from here on while references are given up. -/
def outsetOf (external : Address → Nat) (fields : Address → Option GCObject) : Outset :=
  ⟨.none, external, fields, typeOf fields, fun _ => false⟩

theorem owed_outsetOf (external : Address → Nat) (fields : Address → Option GCObject)
    (live pending : List Address) (p : Address) :
    (outsetOf external fields).owed live pending p =
      counted external live fields p + pending.count p :=
  rfl

variable {external left : Address → Nat} {objects : List Address}

theorem Sound.exists_of_fields (sound : Sound external objects rt) {object : GCObject}
    (isObject : rt.fields p = some object) : p ∈ objects := by
  by_contra outside
  simp [(sound.freed p outside).2] at isObject

theorem Sound.nodup (sound : Sound external objects rt) : objects.Nodup :=
  Lists.nodup_elements sound.holds .gcObjList

theorem Sound.listed_iff (p : Address) : (⟨objects, none, []⟩ : Lists).Listed p ↔ p ∈ objects := by
  simp [Lists.listed_iff, Lists.elements, Lists.content]

/-- Nothing is referred to that is not there. -/
theorem Sound.mem_of_counted (sound : Sound external objects rt)
    (refers : 0 < counted external objects rt.fields p) : p ∈ objects := by
  by_cases isOutside : 0 < external p
  · exact sound.outside p isOutside
  · have inside : 0 < references (children rt.fields) objects p := by
      unfold counted at refers
      omega
    obtain ⟨parent, isParent, isChild⟩ := references_pos.mp inside
    obtain ⟨object, isObject, -, suits⟩ := sound.object parent isParent
    rw [children, isObject, List.mem_map] at isChild
    obtain ⟨ref, isRef, rfl⟩ := isChild
    obtain ⟨target, isTarget, -⟩ := suits ref isRef
    exact sound.exists_of_fields isTarget

/-- References from outside can be given up. -/
theorem Sound.freeing (sound : Sound external objects rt) {pending : List Address}
    (gives : ∀ q, external q = left q + pending.count q) :
    Freeing (outsetOf left rt.fields) objects [] pending ⟨objects, none, []⟩ rt := by
  have owed : ∀ q, (outsetOf left rt.fields).owed objects pending q =
      counted external objects rt.fields q := by
    intro q
    rw [owed_outsetOf]
    simp only [counted, gives]
    omega
  refine
    { phase := sound.phase
      holds := sound.holds
      header := ?_
      freed := fun q outside => (sound.freed q fun member =>
        outside ((Sound.listed_iff q).mpr member)).1
      fields := ?_
      nodup := sound.nodup
      nodup_busy := .nil
      apart := fun _ _ => List.not_mem_nil
      listed_iff := fun q => by rw [Sound.listed_iff]; simp
      object := ?_
      owed_listed := ?_
      owed_live := ?_
      owed_busy := by simp
      idle := by simp
      stage := ?_ }
  · intro q isListed
    obtain ⟨object, isObject, header, -⟩ := sound.object q ((Sound.listed_iff q).mp isListed)
    rw [header, Outset.header, owed]
    simp [outsetOf, typeOf, isObject]
  · intro q
    split
    · rfl
    · rename_i outside
      exact (sound.freed q outside).2
  · intro q member
    obtain ⟨object, isObject, -, suits⟩ := sound.object q member
    refine ⟨object, isObject, by simp [outsetOf, typeOf, isObject], fun ref isRef => ?_⟩
    obtain ⟨target, isTarget, isSuited⟩ := suits ref isRef
    have isType : (outsetOf left rt.fields).type ref.target = target.gcObjType :=
      typeOf_of_fields isTarget
    rwa [isType]
  · intro q positive
    rw [owed] at positive
    exact (Sound.listed_iff q).mpr (sound.mem_of_counted positive)
  · intro q member _
    rw [owed]
    exact sound.positive q member
  · refine ⟨⟨rfl, fun q => ?_⟩, rfl⟩
    simp only [List.not_mem_nil, false_iff, not_and]
    intro isListed _
    rw [owed]
    exact (sound.positive q ((Sound.listed_iff q).mp isListed)).ne'

theorem children_congr {fields others : Address → Option GCObject} {nodes : List Address}
    (same : ∀ p ∈ nodes, fields p = others p) (p : Address) :
    references (children fields) nodes p = references (children others) nodes p := by
  unfold references
  refine congrArg List.sum (List.map_congr_left fun q member => ?_)
  rw [children, children, same q member]

/-- What is left after references have been given up. -/
theorem Sound.of_live {base : Address → Option GCObject} (perm : live.Perm objects)
    (phase : rt.gcPhase = .none)
    (holds : rt.links.Holds (⟨objects, none, []⟩ : Lists).content)
    (header : ∀ p ∈ live, rt.headers p = some ((outsetOf external base).header live [] p))
    (freed : ∀ p ∉ live, rt.headers p = none)
    (fields : ∀ p, rt.fields p = if p ∈ live then base p else none)
    (isThere : ∀ p ∈ live, ∃ object, base p = some object ∧
      ∀ ref ∈ object.marks, ref.Suits (typeOf base ref.target))
    (positive : ∀ p ∈ live, 0 < counted external live base p)
    (inside : ∀ p, 0 < counted external live base p → p ∈ live) :
    Sound external objects rt := by
  have counts : ∀ p, counted external objects rt.fields p = counted external live base p := by
    intro p
    unfold counted
    rw [← references_perm _ perm, children_congr fun q member => by rw [fields, if_pos member]]
  refine ⟨phase, holds, ?_, ?_, ?_, ?_⟩
  · intro p member
    have isLive := perm.mem_iff.mpr member
    obtain ⟨object, isObject, suits⟩ := isThere p isLive
    refine ⟨object, by rw [fields, if_pos isLive, isObject], ?_, ?_⟩
    · rw [header p isLive, counts, Outset.header, owed_outsetOf, List.count_nil, Nat.add_zero]
      rw [← typeOf_of_fields isObject]
      rfl
    · intro ref isRef
      have refers : 0 < references (children base) live ref.target :=
        references_pos.mpr ⟨p, isLive, by
          rw [children, isObject]
          exact List.mem_map_of_mem isRef⟩
      have targetLive := inside ref.target (by unfold counted; omega)
      obtain ⟨target, isTarget, -⟩ := isThere ref.target targetLive
      refine ⟨target, by rw [fields, if_pos targetLive, isTarget], ?_⟩
      rw [← typeOf_of_fields isTarget]
      exact suits ref isRef
  · intro p outside
    have notLive : p ∉ live := fun isLive => outside (perm.mem_iff.mp isLive)
    exact ⟨freed p notLive, by rw [fields, if_neg notLive]⟩
  · intro p member
    rw [counts]
    exact positive p (perm.mem_iff.mpr member)
  · intro p isOutside
    refine perm.mem_iff.mp (inside p ?_)
    unfold counted
    omega

/-- When nothing is pending the heap is as it is between calls. -/
theorem Freeing.sound {base : Address → Option GCObject}
    (freeing : Freeing (outsetOf external base) live [] [] lists rt) :
    Sound external lists.gcObj rt ∧ live.Perm lists.gcObj := by
  obtain ⟨gcObj, tmpObj, zero⟩ := lists
  obtain ⟨⟨rfl, waiting⟩, rfl⟩ := freeing.stage
  have listed : ∀ q, (⟨gcObj, none, []⟩ : Lists).Listed q ↔ q ∈ live := by
    intro q
    rw [freeing.listed_iff]
    simp
  have nodup : gcObj.Nodup := Lists.nodup_elements freeing.holds .gcObjList
  have perm : live.Perm gcObj := by
    rw [List.perm_ext_iff_of_nodup freeing.nodup nodup]
    exact fun q => (listed q).symm.trans (Sound.listed_iff q)
  have owed : ∀ q, (outsetOf external base).owed live [] q = counted external live base q := by
    intro q
    rw [owed_outsetOf, List.count_nil, Nat.add_zero]
  have fields : ∀ q, rt.fields q = if q ∈ live then base q else none := freeing.fields
  refine ⟨.of_live perm freeing.phase freeing.holds ?_ ?_ fields ?_ ?_ ?_, perm⟩
  · exact fun q member => freeing.header q ((listed q).mpr member)
  · exact fun q outside => freeing.freed q fun isListed => outside ((listed q).mp isListed)
  · intro q member
    obtain ⟨object, isObject, -, suits⟩ := freeing.object q member
    exact ⟨object, isObject, suits⟩
  · intro q member
    rw [← owed]
    by_contra none
    have queued : ((outsetOf external base).type q).isQueued = true := by
      by_contra notQueued
      exact none (freeing.owed_live q member (by simpa using notQueued))
    have waits := (waiting q).mpr ⟨(listed q).mpr member, queued, by omega⟩
    exact List.not_mem_nil waits
  · intro q refers
    rw [← owed] at refers
    exact (listed q).mp (freeing.owed_listed q refers)

/-- A reference from outside is given up. -/
theorem Sound.exists_freeRef (sound : Sound external objects rt) {ref : GCRef}
    {object : GCObject} (isObject : rt.fields ref.target = some object)
    (suits : ref.Suits object.gcObjType)
    (gives : ∀ q, external q = left q + [ref.target].count q)
    {fuel : Nat} (enough : objects.length < fuel) :
    ∃ next rest, freeRef (freeZeroRefcount fuel) ref rt = some next ∧ Sound left rest next ∧
      rest.Subperm objects ∧ ∀ q ∈ rest, next.fields q = rt.fields q := by
  have isSuited : ref.Suits ((outsetOf left rt.fields).type ref.target) := by
    have isType : (outsetOf left rt.fields).type ref.target = object.gcObjType :=
      typeOf_of_fields isObject
    rwa [isType]
  obtain ⟨next, after, now, runs, freed, follows⟩ :=
    frees_freeRef (drains_freeZeroRefcount _ fuel) isSuited (sound.freeing gives) enough
  obtain ⟨soundNow, perm⟩ := freed.sound
  refine ⟨next, now.gcObj, runs, soundNow, ⟨after, perm, follows.live⟩, fun q member => ?_⟩
  rw [freed.fields, if_pos (perm.mem_iff.mpr member)]
  rfl

end Jib.QuickJS.GCRuntime
