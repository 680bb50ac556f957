import Jib.QuickJSScans

/-!
# Collecting cycles in QuickJS

`gc_free_cycles` frees what the scan has not kept, objects with their fields first
and their memory when nothing refers to it any more.  `JS_RunGC` leaves a heap
with exactly the objects that are reachable from outside.
-/

namespace Jib.QuickJS.GCRuntime

open LinkedLists CycleCollection

variable {base : Address → Option GCObject} {objects : List Address}
  {count : Address → Nat} {mark : Address → Bool} {lists : Lists} {rt : GCRuntime} {p q : Address}

/-! ## Freeing cycles -/

/-- Cycles are being removed: `kept` objects are left alone, `busy` ones have lost
their fields, and the second list holds what has not been looked at. -/
structure Removing (outset : Outset) (kept live busy : List Address) (lists : Lists)
    (rt : GCRuntime) : Prop where
  freeing : Freeing outset live busy [] lists rt
  removes : outset.phase = .removeCycles
  kept : lists.gcObj = kept
  waiting : ∀ p ∈ lists.elements .tmpObjList, p ∈ live
  moved : ∀ p ∈ lists.zero, p ∈ live → (outset.type p).isQueued = false
  queued : ∀ p ∈ busy, (outset.type p).isQueued = true

variable {outset : Outset} {kept live busy : List Address}

theorem Removing.not_kept (removing : Removing outset kept live busy lists rt)
    (member : p ∈ lists.elements .tmpObjList) : p ∉ lists.gcObj := by
  have differ : GCList.gcObjList ≠ .tmpObjList := by simp
  exact Lists.not_mem_of_ne removing.freeing.holds member differ

theorem Removing.tmp_isSome (removing : Removing outset kept live busy lists rt) :
    ∃ nodes, lists.content .tmpObjList = some nodes := by
  have stage := removing.freeing.stage
  rw [Outset.Stage, removing.removes] at stage
  exact Option.isSome_iff_exists.mp stage.1

theorem gcFreeCyclesBody_of_queued {header : GCObjectHeader} (isHeader : rt.headers p = some header)
    (queued : header.gcObjType.isQueued = true) :
    gcFreeCyclesBody p rt = freeGCObject (fun _ => none) p rt := by
  rw [gcFreeCyclesBody, isHeader, Option.bind_eq_bind, Option.bind_some]
  cases isType : header.gcObjType with
  | jsObject | functionBytecode | asyncFunction => rfl
  | _ => simp [isType, GCObjType.isQueued] at queued

theorem gcFreeCyclesBody_of_not_queued {header : GCObjectHeader}
    (isHeader : rt.headers p = some header) (notQueued : header.gcObjType.isQueued = false) :
    gcFreeCyclesBody p rt = rt.moveTail p .gcZeroRefCountList := by
  rw [gcFreeCyclesBody, isHeader, Option.bind_eq_bind, Option.bind_some]
  cases isType : header.gcObjType with
  | shape | varRef | jsContext => rfl
  | _ => simp [isType, GCObjType.isQueued] at notQueued

/-- An object with fields is freed. -/
theorem Removing.exists_free (removing : Removing outset kept live busy lists rt)
    (member : p ∈ lists.elements .tmpObjList) (isQueued : (outset.type p).isQueued = true) :
    ∃ next after others now, gcFreeCyclesBody p rt = some next ∧
      Removing outset kept after others now next ∧
      (now.elements .tmpObjList).length < (lists.elements .tmpObjList).length ∧
      ∀ q, now.Listed q → lists.Listed q := by
  have freeing := removing.freeing
  have isLive := removing.waiting p member
  have header := freeing.header p ⟨_, member⟩
  have notKept := removing.not_kept member
  have notNone : outset.phase ≠ .none := by simp [removing.removes]
  obtain ⟨next, after, between, now, runs, follows, result⟩ := freeing.exists_freeGCObject
    notNone (fun _ => none) isLive isQueued (by simp [removing.removes]) (fun _ => notKept)
  have isRun : gcFreeCyclesBody p rt = some next :=
    (gcFreeCyclesBody_of_queued header isQueued).trans runs
  obtain ⟨sameKept, fewer⟩ := follows.removing removing.removes
  have notBetween : p ∉ between.gcObj := sameKept ▸ notKept
  have keeps : (between.erase p).gcObj = kept :=
    (List.erase_of_not_mem notBetween).trans (sameKept.trans removing.kept)
  have nodup := Lists.nodup_elements freeing.holds .tmpObjList
  have inside : ∀ q ∈ (between.erase p).elements .tmpObjList, q ∈ live ∧ q ≠ p := by
    intro q isIn
    rw [Lists.elements_erase, (nodup.sublist (fewer _)).mem_erase_iff] at isIn
    exact ⟨removing.waiting q ((fewer _).subset isIn.2), isIn.1⟩
  have moved : ∀ q ∈ between.zero, q ∈ after → (outset.type q).isQueued = false := by
    intro q isMoved isAfter
    exact removing.moved q ((fewer .gcZeroRefCountList).subset isMoved)
      (List.mem_of_mem_erase (follows.live.subset isAfter))
  have less : ((between.erase p).elements .tmpObjList).length <
      (lists.elements .tmpObjList).length := by
    have stays := follows.busy p List.mem_cons_self _ member
    rw [Lists.elements_erase]
    have shorter := List.length_erase_of_mem stays
    have positive := List.length_pos_of_mem stays
    have atMost := (fewer .tmpObjList).length_le
    omega
  have listed : ∀ q, (between.erase p).Listed q → lists.Listed q := by
    rintro q ⟨list, isIn⟩
    rw [Lists.elements_erase] at isIn
    exact ⟨list, (fewer list).subset (List.mem_of_mem_erase isIn)⟩
  rcases result with ⟨freed, rfl⟩ | ⟨-, freed, rfl⟩
  · refine ⟨next, after, busy, between.erase p, isRun,
      ⟨freed, removing.removes, keeps, ?_, ?_, removing.queued⟩, less, listed⟩
    · intro q isIn
      exact ((freed.listed_iff q).mp ⟨_, isIn⟩).resolve_right
        (freeing.apart q (inside q isIn).1)
    · exact fun q isMoved => moved q (List.mem_of_mem_erase isMoved)
  · refine ⟨next, after, p :: busy, _, isRun, ⟨freed, removing.removes, keeps, ?_, ?_, ?_⟩,
      less, fun q isNow => ?_⟩
    · intro q isIn
      refine ((freed.listed_iff q).mp ⟨_, isIn⟩).resolve_right fun isBusy => ?_
      rcases List.mem_cons.mp isBusy with rfl | isBusy
      · exact (inside q isIn).2 rfl
      · exact freeing.apart q (inside q isIn).1 isBusy
    · intro q isMoved isAfter
      rcases List.mem_append.mp isMoved with before | isLast
      · exact moved q (List.mem_of_mem_erase before) isAfter
      · obtain rfl := List.mem_singleton.mp isLast
        exact absurd List.mem_cons_self (freed.apart q isAfter)
    · intro q isBusy
      rcases List.mem_cons.mp isBusy with rfl | isBusy
      · exact isQueued
      · exact removing.queued q isBusy
    · have isZero : (between.erase p).content .gcZeroRefCountList =
          some (between.erase p).zero := rfl
      rw [Lists.listed_update (p := p) isZero (Lists.update_zero _ _).symm (by simp [or_comm])]
        at isNow
      rcases isNow with rfl | isErased
      · exact ⟨_, member⟩
      · exact listed q isErased

/-- Other objects are freed with those that refer to them. -/
theorem Removing.exists_move (removing : Removing outset kept live busy lists rt)
    (member : p ∈ lists.elements .tmpObjList) (isQueued : (outset.type p).isQueued = false) :
    ∃ next now, gcFreeCyclesBody p rt = some next ∧
      Removing outset kept live busy now next ∧
      (now.elements .tmpObjList).length < (lists.elements .tmpObjList).length ∧
      ∀ q, now.Listed q → lists.Listed q := by
  have freeing := removing.freeing
  have isListed : lists.Listed p := ⟨_, member⟩
  have header := freeing.header p isListed
  have notKept := removing.not_kept member
  have isZero : (lists.erase p).content .gcZeroRefCountList = some (lists.erase p).zero := rfl
  obtain ⟨links, moves, holds⟩ := exists_moveTail freeing.holds ⟨_, member⟩ isZero
  rw [Lists.update_zero] at holds
  have keeps : (lists.erase p).gcObj = lists.gcObj := List.erase_of_not_mem notKept
  have listed : ∀ q, Lists.Listed { lists.erase p with zero := (lists.erase p).zero ++ [p] } q ↔
      lists.Listed q := by
    intro q
    rw [Lists.listed_update (p := p) isZero (Lists.update_zero _ _).symm (by simp [or_comm]),
      Lists.listed_erase freeing.holds]
    by_cases isSame : q = p
    · subst isSame
      simp [isListed]
    · simp [isSame]
  have stage := freeing.stage
  rw [Outset.Stage, removing.removes] at stage
  refine ⟨{ rt with links := links }, _, ?_,
    ⟨freeing.relink holds listed ?_, removing.removes, keeps.trans removing.kept, ?_, ?_,
      removing.queued⟩, ?_, fun q => (listed q).mp⟩
  · exact (gcFreeCyclesBody_of_not_queued header isQueued).trans (moves rt rfl)
  · rw [Outset.Stage, removing.removes]
    refine ⟨by simp [Lists.erase, stage.1], ?_⟩
    rw [keeps]
    exact stage.2
  · intro q isIn
    have isErased : q ∈ (lists.erase p).elements .tmpObjList := isIn
    rw [Lists.elements_erase] at isErased
    exact removing.waiting q (List.mem_of_mem_erase isErased)
  · intro q isMoved isAfter
    rcases List.mem_append.mp isMoved with before | isLast
    · exact removing.moved q (List.mem_of_mem_erase before) isAfter
    · obtain rfl := List.mem_singleton.mp isLast
      exact isQueued
  · have shorter := List.length_erase_of_mem member
    have positive := List.length_pos_of_mem member
    have isErased : Lists.elements { lists.erase p with zero := (lists.erase p).zero ++ [p] }
        .tmpObjList = (lists.elements .tmpObjList).erase p := Lists.elements_erase .tmpObjList
    rw [isErased]
    omega

/-- The first loop of `gc_free_cycles` looks at all objects in the second list. -/
theorem Removing.exists_listDrain (removing : Removing outset kept live busy lists rt)
    {fuel : Nat} (enough : (lists.elements .tmpObjList).length < fuel) :
    ∃ next after others now, listDrain GCRuntime.links gcFreeCyclesBody .tmpObjList fuel rt =
        some next ∧
      Removing outset kept after others now next ∧ now.tmpObj = some [] ∧
        ∀ q, now.Listed q → lists.Listed q := by
  let invariant (size : Nat) (state : GCRuntime) : Prop := ∃ left others now,
    (now.elements .tmpObjList).length = size ∧ Removing outset kept left others now state ∧
      ∀ q, now.Listed q → lists.Listed q
  have step : ∀ size state, invariant size state →
      state.links.next (.head .tmpObjList) = some (.head .tmpObjList) ∨
        ∃ node after left, state.links.next (.head .tmpObjList) = some (.node node) ∧
          gcFreeCyclesBody node state = some after ∧ invariant left after ∧ left < size := by
    rintro size state ⟨left, others, now, rfl, here, within⟩
    obtain ⟨nodes, isTmp⟩ := here.tmp_isSome
    have first := here.freeing.holds.next_head isTmp
    have isElements : now.elements .tmpObjList = nodes := by
      rw [Lists.elements, isTmp, Option.getD_some]
    cases nodes with
    | nil => exact .inl first
    | cons node rest =>
        have member : node ∈ now.elements .tmpObjList := by simp [isElements]
        cases isQueued : (outset.type node).isQueued with
        | true =>
            obtain ⟨next, after, freed, later, runs, removes, less, fewer⟩ :=
              here.exists_free member isQueued
            exact .inr ⟨node, next, _, first, runs,
              ⟨after, freed, later, rfl, removes, fun q => within q ∘ fewer q⟩, less⟩
        | false =>
            obtain ⟨next, later, runs, removes, less, fewer⟩ := here.exists_move member isQueued
            exact .inr ⟨node, next, _, first, runs,
              ⟨left, others, later, rfl, removes, fun q => within q ∘ fewer q⟩, less⟩
  obtain ⟨next, size, runs, ⟨after, others, now, -, removes, within⟩, isEmpty⟩ :=
    listDrain_of_steps step ⟨live, busy, lists, rfl, removing, fun _ => id⟩ enough
  refine ⟨next, after, others, now, runs, removes, ?_, within⟩
  obtain ⟨nodes, isTmp⟩ := removes.tmp_isSome
  have first := removes.freeing.holds.next_head isTmp
  cases nodes with
  | nil => exact isTmp
  | cons node rest => simp [isEmpty, Links.firstCell] at first

/-- A variable or a shape that an object refers to which does not wait is one of a
context, and no such object refers to a context. -/
theorem Freeing.leaf_of_child {pending : List Address}
    (freeing : Freeing outset live busy pending lists rt) (member : p ∈ live)
    (isChild : q ∈ children outset.base p) (parent : (outset.type p).isQueued = false)
    (child : (outset.type q).isQueued = false) :
    outset.type p = .jsContext ∧ outset.type q ≠ .jsContext := by
  obtain ⟨object, isObject, isType, suits⟩ := freeing.object p member
  rw [children, isObject, List.mem_map] at isChild
  obtain ⟨ref, isRef, rfl⟩ := isChild
  have isSuited := suits ref isRef
  have isFreed := object.frees_perm_marks.mem_iff.mpr isRef
  have notWaiting : ¬((∃ r, ref = .value r) ∨ ∃ r, ref = .asyncFunc r) := by
    rintro (⟨r, rfl⟩ | ⟨r, rfl⟩)
    · simp [GCRef.isQueued_of_value isSuited] at child
    · simp [GCRef.isQueued_of_asyncFunc isSuited] at child
  have isContext : outset.type p = .jsContext := by
    cases isKind : outset.type p with
    | jsContext => rfl
    | shape => exact absurd (object.frees_of_leaf (.inl (isType.trans isKind)) isFreed) notWaiting
    | varRef => exact absurd (object.frees_of_leaf (.inr (isType.trans isKind)) isFreed) notWaiting
    | _ => simp [isKind, GCObjType.isQueued] at parent
  refine ⟨isContext, ?_⟩
  rcases object.frees_of_context (isType.trans isContext) isFreed with
    ⟨r, rfl⟩ | ⟨r, rfl⟩ | ⟨r, rfl⟩
  · exact absurd (.inl ⟨r, rfl⟩) notWaiting
  · simp [show outset.type (GCRef.varRef r).target = .varRef from isSuited]
  · simp [show outset.type (GCRef.shape r).target = .shape from isSuited]

/-- Shapes, variables and contexts that were to be freed have been freed with the
objects that refer to them. -/
theorem Removing.live_kept (removing : Removing outset kept live busy lists rt)
    (isEmpty : lists.tmpObj = some [])
    (unreferred : ∀ q ∉ kept, outset.external q + references (children outset.base) kept q = 0)
    (isLive : p ∈ live) : p ∈ kept := by
  have freeing := removing.freeing
  have notQueued : ∀ q ∈ live, q ∉ kept → (outset.type q).isQueued = false := by
    intro q member outside
    have isListed := (freeing.listed_iff q).mpr (.inl member)
    rw [Lists.listed_iff] at isListed
    rcases isListed with inside | isTmp | isMoved
    · exact absurd (removing.kept ▸ inside) outside
    · simp [Lists.elements, Lists.content, isEmpty] at isTmp
    · exact removing.moved q isMoved member
  -- What refers to an object that is left is such an object itself.
  have parent : ∀ q ∈ live, q ∉ kept → ∃ r ∈ live, r ∉ kept ∧
      outset.type r = .jsContext ∧ outset.type q ≠ .jsContext := by
    intro q member outside
    have positive := freeing.owed_live q member (notQueued q member outside)
    have none := unreferred q outside
    have refers : 0 < references (children outset.base) live q := by
      simp only [Outset.owed, List.count_nil] at positive
      omega
    obtain ⟨r, isParent, isChild⟩ := references_pos.mp refers
    have notKept : r ∉ kept := by
      intro inside
      have found : 0 < references (children outset.base) kept q :=
        references_pos.mpr ⟨r, inside, isChild⟩
      omega
    exact ⟨r, isParent, notKept, freeing.leaf_of_child isParent isChild
      (notQueued r isParent notKept) (notQueued q member outside)⟩
  by_contra outside
  obtain ⟨r, isParent, notKept, isContext, -⟩ := parent p isLive outside
  obtain ⟨-, -, -, -, notContext⟩ := parent r isParent notKept
  exact notContext isContext

/-- While the memory of objects is given back, `rest` are left of the list. -/
structure Clearing (kept zero : List Address) (start : GCRuntime) (rest : List Address)
    (rt : GCRuntime) : Prop where
  phase : rt.gcPhase = .none
  holds : rt.links.Holds fun
    | .gcObjList => some kept
    | _ => none
  header : ∀ p, rt.headers p = if p ∈ zero ∧ p ∉ rest then none else start.headers p
  fields : rt.fields = start.fields
  suffix : ∃ done, zero = done ++ rest
  next : ∀ front node back, rest = front ++ node :: back →
    rt.links.next (.node node) = some (Links.firstCell .gcZeroRefCountList back)

/-- The second loop of `gc_free_cycles` gives back the memory of the objects whose
fields have been freed. -/
theorem exists_gcFreeZombies {kept zero : List Address} (nodup : zero.Nodup)
    (apart : ∀ p ∈ zero, p ∉ kept)
    (queued : ∀ p ∈ zero, ∃ header, rt.headers p = some header ∧
      header.gcObjType.isQueued = true)
    (gone : ∀ p ∈ zero, rt.fields p = none)
    (clearing : Clearing kept zero rt zero rt) {fuel : Nat} (enough : zero.length < fuel) :
    ∃ next, listForEachSafe GCRuntime.links gcFreeZombie .gcZeroRefCountList fuel
        (Links.firstCell .gcZeroRefCountList zero)
        (rt.links.next (Links.firstCell .gcZeroRefCountList zero)) rt = some next ∧
      Clearing kept zero rt [] next := by
  have step : ∀ node rest state, Clearing kept zero rt (node :: rest) state → ∃ after,
      gcFreeZombie node state = some after ∧ Clearing kept zero rt rest after := by
    intro node rest state here
    obtain ⟨done, isZero⟩ := here.suffix
    have member : node ∈ zero := by simp [isZero]
    obtain ⟨header, isHeader, isQueued⟩ := queued node member
    have isState : state.headers node = some header := by
      rw [here.header, if_neg (by simp), isHeader]
    have notRest : node ∉ rest := by
      have tail := (List.nodup_append.mp (isZero ▸ nodup)).2.1
      exact (List.nodup_cons.mp tail).1
    have runs : gcFreeZombie node state = state.jsFreeRT node := by
      rw [gcFreeZombie, isState, Option.bind_eq_bind, Option.bind_some]
      cases isType : header.gcObjType with
      | jsObject | functionBytecode | asyncFunction => rfl
      | _ => simp [isType, GCObjType.isQueued] at isQueued
    have frees : state.jsFreeRT node = some { state with
        links := (state.links.setNext (.node node) none).setPrev (.node node) none
        headers := Function.update state.headers node none
        fields := Function.update state.fields node none } := by
      simp [jsFreeRT, isState]
    refine ⟨_, runs.trans frees, here.phase, ?_, ?_, ?_, ⟨done ++ [node], by simp [isZero]⟩, ?_⟩
    · apply here.holds.clear
      intro list nodes isContent
      cases list with
      | gcObjList =>
          obtain rfl : kept = nodes := by simpa using isContent
          exact apart node member
      | _ => simp at isContent
    · intro p
      by_cases isSame : p = node
      · subst isSame
        simp [member, notRest]
      · simp only [Function.update_of_ne isSame, here.header, List.mem_cons, isSame, false_or]
    · have none : state.fields node = none := by rw [here.fields, gone node member]
      rw [← none, Function.update_eq_self, here.fields]
    · intro front other back isRest
      have differ : other ≠ node := by
        rintro rfl
        exact notRest (by simp [isRest])
      have isNext := here.next (node :: front) other back (by simp [isRest])
      simpa [Links.setNext, Links.setPrev, differ] using isNext
  obtain ⟨next, runs, result⟩ := listForEachSafe_of_steps
    (fun node rest state here => here.next [] node rest rfl) step clearing enough
  exact ⟨next, runs, result⟩

/-- Zombies have been freed with the objects that referred to them, and what is
left is a heap again. -/
theorem Removing.exists_sound {external : Address → Nat}
    (removing : Removing ⟨.removeCycles, external, base, typeOf base, mark⟩ kept live busy lists rt)
    (isEmpty : lists.tmpObj = some [])
    (unreferred : ∀ q ∉ kept, external q + references (children base) kept q = 0)
    (unmarked : ∀ q ∈ kept, mark q = false) {fuel : Nat} (enough : lists.zero.length < fuel) :
    ∃ el next, rt.links.next (.head .gcZeroRefCountList) = some el ∧
      listForEachSafe GCRuntime.links gcFreeZombie .gcZeroRefCountList fuel el
        (rt.links.next el) { rt with gcPhase := .none } = some next ∧
      Sound external kept { next with links := next.links.initListHead .gcZeroRefCountList } ∧
      ∀ p ∈ kept, next.fields p = base p := by
  have freeing := removing.freeing
  have stage := freeing.stage
  rw [Outset.Stage, removing.removes, removing.kept] at stage
  have isLive : ∀ p, p ∈ live ↔ p ∈ kept := fun p =>
    ⟨removing.live_kept isEmpty unreferred, fun isKept => (stage.2 p isKept).1⟩
  have nodup : kept.Nodup := removing.kept ▸ Lists.nodup_elements freeing.holds .gcObjList
  have perm : live.Perm kept := (List.perm_ext_iff_of_nodup freeing.nodup nodup).mpr isLive
  have apart : ∀ p ∈ lists.zero, p ∉ kept := by
    intro p inZero
    have inElements : p ∈ lists.elements .gcZeroRefCountList := inZero
    have differ : GCList.gcObjList ≠ .gcZeroRefCountList := by simp
    exact removing.kept ▸ Lists.not_mem_of_ne freeing.holds inElements differ
  have isZero : lists.content .gcZeroRefCountList = some lists.zero := rfl
  have clearing : Clearing kept lists.zero { rt with gcPhase := .none } lists.zero
      { rt with gcPhase := .none } := by
    refine ⟨rfl, freeing.holds.forget ?_, by simp, rfl, ⟨[], rfl⟩, ?_⟩
    · intro list nodes isContent
      cases list with
      | gcObjList =>
          obtain rfl : kept = nodes := by simpa using isContent
          exact congrArg some removing.kept
      | _ => simp at isContent
    · exact fun front node back isAll =>
        freeing.holds.next_node (isZero.trans (congrArg some isAll))
  have notLive : ∀ p ∈ lists.zero, p ∉ live := fun p inZero => mt (isLive p).mp (apart p inZero)
  let idle : GCRuntime := { rt with gcPhase := .none }
  have queued : ∀ p ∈ lists.zero, ∃ header, idle.headers p = some header ∧
      header.gcObjType.isQueued = true := by
    intro p inZero
    have isListed : lists.Listed p := ⟨.gcZeroRefCountList, inZero⟩
    have isBusy := ((freeing.listed_iff p).mp isListed).resolve_left (notLive p inZero)
    exact ⟨_, freeing.header p isListed, removing.queued p isBusy⟩
  have gone : ∀ p ∈ lists.zero, idle.fields p = none := fun p inZero =>
    (freeing.fields p).trans (if_neg (notLive p inZero))
  have nodupZero : lists.zero.Nodup := Lists.nodup_elements freeing.holds .gcZeroRefCountList
  obtain ⟨next, runs, cleared⟩ :=
    exists_gcFreeZombies nodupZero apart queued gone clearing enough
  have fields : ∀ p, next.fields p = if p ∈ live then base p else none := by
    intro p
    rw [cleared.fields]
    exact freeing.fields p
  refine ⟨_, next, freeing.holds.next_head isZero, runs, ?_, ?_⟩
  · have counts : ∀ p, counted external live base p =
        external p + references (children base) kept p := by
      intro p
      rw [counted, references_perm _ perm]
    refine .of_live perm cleared.phase ?_ ?_ ?_ fields ?_ ?_ ?_
    · have isContent : Function.update (fun
          | .gcObjList => some kept
          | _ => none) GCList.gcZeroRefCountList (some []) =
            (⟨kept, none, []⟩ : Lists).content := by
        funext list
        cases list <;> rfl
      rw [← isContent]
      exact cleared.holds.init .gcZeroRefCountList
    · intro p member
      have isKept := (isLive p).mp member
      have notZero : p ∉ lists.zero := fun inZero => apart p inZero isKept
      have isListed := (freeing.listed_iff p).mpr (.inl member)
      rw [cleared.header, if_neg (by simp [notZero])]
      refine (freeing.header p isListed).trans (congrArg some ?_)
      rw [Outset.header, Outset.header]
      simp only [outsetOf, Outset.owed, unmarked p isKept]
    · intro p outside
      rw [cleared.header]
      split
      · rfl
      · rename_i notZero
        refine freeing.freed p fun isListed => ?_
        rcases Lists.listed_iff.mp isListed with inside | isTmp | isZero
        · exact outside ((isLive p).mpr (removing.kept ▸ inside))
        · simp [Lists.elements, Lists.content, isEmpty] at isTmp
        · exact notZero ⟨isZero, List.not_mem_nil⟩
    · intro p member
      obtain ⟨object, isObject, -, suits⟩ := freeing.object p member
      exact ⟨object, isObject, suits⟩
    · intro p member
      rw [counts]
      exact (stage.2 p ((isLive p).mp member)).2
    · intro p refers
      by_contra outside
      have none := unreferred p (mt (isLive p).mpr outside)
      rw [counts] at refers
      omega
  · intro p isKept
    rw [fields, if_pos ((isLive p).mpr isKept)]

/-- The rest of a heap is freed. -/
theorem Sound.exists_gcFreeCycles {origin : GCRuntime} {external : Address → Nat}
    (sound : Sound external objects origin) {aside : List Address}
    (collecting : Collecting origin.fields objects
      (fun q => external q + references (children origin.fields) objects q) mark
      ⟨kept, some aside, []⟩ rt)
    (isAside : ∀ q ∈ objects, q ∈ aside ↔
      external q + references (children origin.fields) kept q = 0)
    (unmarked : ∀ q ∈ kept, mark q = false) {fuel : Nat} (enough : objects.length < fuel) :
    ∃ next, gcFreeCycles fuel rt = some next ∧ Sound external kept next ∧
      ∀ p ∈ kept, next.fields p = origin.fields p := by
  have perm := collecting.perm sound.nodup
  have inside : ∀ q, 0 < external q + references (children origin.fields) objects q →
      q ∈ objects := fun q => sound.mem_of_counted
  have fewer : ∀ q, references (children origin.fields) kept q ≤
      references (children origin.fields) objects q := by
    intro q
    rw [← references_perm _ perm, references_append]
    omega
  have start : Removing ⟨.removeCycles, external, origin.fields, typeOf origin.fields, mark⟩ kept
      objects [] ⟨kept, some aside, []⟩ { rt with gcPhase := .removeCycles } := by
    refine ⟨?_, rfl, rfl, ?_, by simp, by simp⟩
    · refine
        { phase := rfl
          holds := collecting.holds
          header := fun q isListed => collecting.header q ((collecting.listed q).mp isListed)
          freed := fun q outside => collecting.freed q (mt (collecting.listed q).mpr outside)
          fields := ?_
          nodup := sound.nodup
          nodup_busy := .nil
          apart := fun _ _ => List.not_mem_nil
          listed_iff := fun q => by rw [collecting.listed]; simp
          object := ?_
          owed_listed := fun q refers => (collecting.listed q).mpr (inside q refers)
          owed_live := fun q member _ => sound.positive q member
          owed_busy := by simp
          idle := by simp
          stage := ⟨rfl, fun q isKept => ?_⟩ }
      · intro q
        split
        · exact congrFun collecting.fields q
        · rename_i outside
          exact (congrFun collecting.fields q).trans (sound.freed q outside).2
      · intro q member
        obtain ⟨object, isObject, -, suits⟩ := sound.object q member
        refine ⟨object, isObject, (typeOf_of_fields isObject).symm, fun ref isRef => ?_⟩
        obtain ⟨target, isTarget, isSuited⟩ := suits ref isRef
        rw [← typeOf_of_fields isTarget] at isSuited
        exact isSuited
      · have member : q ∈ objects := perm.mem_iff.mp (List.mem_append_left _ isKept)
        have inGC : q ∈ Lists.elements ⟨kept, some aside, []⟩ .gcObjList := isKept
        have differ : GCList.tmpObjList ≠ .gcObjList := by simp
        have notAside : q ∉ aside := Lists.not_mem_of_ne collecting.holds inGC differ
        have positive := mt (isAside q member).mpr notAside
        exact ⟨member, Nat.pos_of_ne_zero positive⟩
    · exact fun p isIn => perm.mem_iff.mp (List.mem_append_right _ isIn)
  have shorter : aside.length ≤ objects.length := by
    rw [← perm.length_eq, List.length_append]
    omega
  obtain ⟨middle, live, busy, lists, runs, removes, isEmpty, within⟩ :=
    start.exists_listDrain (shorter.trans_lt enough)
  have unreferred : ∀ q ∉ kept, external q + references (children origin.fields) kept q = 0 := by
    intro q outside
    by_cases member : q ∈ objects
    · have isDoomed : q ∈ aside :=
        (List.mem_append.mp (perm.mem_iff.mpr member)).resolve_left outside
      exact (isAside q member).mp isDoomed
    · have none := mt (inside q) member
      have less := fewer q
      omega
  have fewerZombies : lists.zero.length ≤ objects.length := by
    have nodup : lists.zero.Nodup := Lists.nodup_elements removes.freeing.holds .gcZeroRefCountList
    refine (List.subperm_of_subset nodup fun q inZero => ?_).length_le
    exact (collecting.listed q).mp (within q ⟨.gcZeroRefCountList, inZero⟩)
  obtain ⟨el, next, first, runsRest, soundNow, fields⟩ :=
    removes.exists_sound isEmpty unreferred unmarked (fewerZombies.trans_lt enough)
  refine ⟨_, ?_, soundNow, fields⟩
  simp only [gcFreeCycles, runs, first, Option.bind_eq_bind, Option.bind_some, runsRest]
  rfl

/-! ## What a collection keeps -/

/-- The objects of a heap with their counts, as trial deletion sees them. -/
def heapGraph (external : Address → Nat) (objects : List Address)
    (fields : Address → Option GCObject) : Graph Address :=
  ⟨objects, children fields, fun p => counted external objects fields p⟩

/-- What is left of the counts are the references from outside. -/
theorem decref_heapGraph (external : Address → Nat) (objects : List Address)
    (fields : Address → Option GCObject) (p : Address) :
    (heapGraph external objects fields).decref p = external p := by
  rw [Graph.decref_apply]
  simp only [heapGraph, Graph.internal, counted]
  omega

variable {external : Address → Nat}

theorem Sound.closed (sound : Sound external objects rt) : Closed rt.fields objects := by
  refine ⟨sound.nodup, fun p member => ?_, fun p member q isChild => ?_⟩
  · obtain ⟨object, isObject, -⟩ := sound.object p member
    exact ⟨object, isObject⟩
  · refine sound.mem_of_counted ?_
    have refers : 0 < references (children rt.fields) objects q :=
      references_pos.mpr ⟨p, member, isChild⟩
    unfold counted
    omega

theorem Sound.collecting (sound : Sound external objects rt) :
    Collecting rt.fields objects
      (fun q => external q + references (children rt.fields) objects q) (fun _ => false)
      ⟨objects, none, []⟩ rt := by
  refine ⟨sound.phase, sound.holds, rfl, fun p member => ?_, fun p outside =>
    (sound.freed p outside).1, Sound.listed_iff⟩
  obtain ⟨object, isObject, header, -⟩ := sound.object p member
  rw [header, typeOf_of_fields isObject]
  rfl

/-- `JS_RunGC` leaves a heap with the objects that trial deletion keeps. -/
theorem Sound.exists_jsRunGC (sound : Sound external objects rt) {fuel : Nat}
    (enough : objects.length < fuel) :
    ∃ next, jsRunGC fuel rt = some next ∧
      Sound external (heapGraph external objects rt.fields).collect next ∧
      ∀ p ∈ (heapGraph external objects rt.fields).collect, next.fields p = rt.fields p := by
  obtain ⟨first, decrefs, aside, collecting, isIn⟩ :=
    Trial.exists_gcDecref sound.closed sound.collecting enough
  have isAside_iff : ∀ p ∈ objects, isAside external (fun p => decide (p ∈ objects)) p =
      decide (external p = 0) := by
    intro p member
    rw [isAside, decide_eq_true member, Bool.true_and]
    rfl
  let graph := heapGraph external objects rt.fields
  have kept : (objects.filter fun p => !isAside external (fun p => decide (p ∈ objects)) p) =
      graph.nodes.filter fun p => graph.decref p ≠ 0 := by
    refine List.filter_congr fun p member => ?_
    rw [isAside_iff p member, decref_heapGraph]
    simp
  have isDoomed : aside.Perm (graph.nodes.filter fun p => graph.decref p = 0) := by
    have nodup : aside.Nodup := Lists.nodup_elements collecting.holds .tmpObjList
    have nodupFilter : (graph.nodes.filter fun p => graph.decref p = 0).Nodup :=
      sound.nodup.filter _
    rw [List.perm_ext_iff_of_nodup nodup nodupFilter]
    intro p
    rw [isIn, List.mem_filter]
    refine and_congr_right fun member => ?_
    rw [isAside_iff p member, decref_heapGraph]
    simp
  have scanning : Scanning rt.fields objects external []
      (graph.nodes.filter fun p => graph.decref p ≠ 0) aside first := by
    refine ⟨_, by simpa [references, kept] using collecting, fun p member => ?_, by simp⟩
    rw [isIn, isAside_iff p member]
    simp [member, references]
  obtain ⟨second, left, mark, scans, collectingLeft, isLeft, unmarked⟩ :=
    Scanning.exists_gcScan sound.closed scanning enough
  have isCollect : scan (children rt.fields)
      (graph.nodes.filter fun p => graph.decref p ≠ 0) aside = graph.collect :=
    scan_congr isDoomed
  rw [isCollect] at collectingLeft isLeft unmarked
  obtain ⟨next, frees, soundNow, fields⟩ :=
    sound.exists_gcFreeCycles collectingLeft isLeft unmarked enough
  refine ⟨next, ?_, soundNow, fields⟩
  simp only [jsRunGC, decrefs, scans, Option.bind_eq_bind, Option.bind_some]
  exact frees

/-- The object is referred to from outside, or by such an object over others. -/
def Reachable (external : Address → Nat) (fields : Address → Option GCObject) (p : Address) :
    Prop :=
  ∃ root, 0 < external root ∧ Relation.ReflTransGen (Leads (children fields)) root p

/-- A collection keeps exactly what is reachable from outside. -/
theorem Sound.mem_collect_iff (sound : Sound external objects rt) (p : Address) :
    p ∈ (heapGraph external objects rt.fields).collect ↔ Reachable external rt.fields p := by
  rw [Graph.mem_collect_iff _ sound.closed.child]
  have isRoot : ∀ root, (heapGraph external objects rt.fields).count root ≠
      (heapGraph external objects rt.fields).internal root ↔ 0 < external root := by
    intro root
    simp only [heapGraph, Graph.internal, counted]
    omega
  constructor
  · rintro ⟨root, -, isHeld, leads⟩
    exact ⟨root, (isRoot root).mp isHeld, leads⟩
  · rintro ⟨root, isHeld, leads⟩
    exact ⟨root, sound.outside root isHeld, (isRoot root).mpr isHeld, leads⟩

/-- Nothing that is reachable from outside has been freed. -/
theorem Sound.mem_of_reachable (sound : Sound external objects rt)
    (reachable : Reachable external rt.fields p) : p ∈ objects := by
  obtain ⟨root, isRoot, leads⟩ := reachable
  induction leads with
  | refl => exact sound.outside root isRoot
  | tail _ isChild ih => exact sound.closed.child _ ih _ isChild

end Jib.QuickJS.GCRuntime
