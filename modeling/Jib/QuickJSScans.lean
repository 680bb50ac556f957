import Jib.QuickJSHeaps

/-!
# Looking for cycles in QuickJS

`gc_decref` takes the references of objects from the counts.  `gc_scan` gives them
back, first to what is kept.  The kept objects are those that trial deletion keeps.
-/

namespace Jib.QuickJS.GCRuntime

open LinkedLists CycleCollection

/-- The counts differ from the numbers of references while cycles are looked
for. -/
structure Collecting (base : Address → Option GCObject) (objects : List Address)
    (count : Address → Nat) (mark : Address → Bool) (lists : Lists) (rt : GCRuntime) : Prop where
  phase : rt.gcPhase = .none
  holds : rt.links.Holds lists.content
  fields : rt.fields = base
  header : ∀ p ∈ objects, rt.headers p = some ⟨count p, typeOf base p, mark p⟩
  freed : ∀ p ∉ objects, rt.headers p = none
  listed : ∀ p, lists.Listed p ↔ p ∈ objects

variable {base : Address → Option GCObject} {objects : List Address}
  {count : Address → Nat} {mark : Address → Bool} {lists : Lists} {rt : GCRuntime} {p q : Address}

/-- A new count and a new mark are written. -/
theorem Collecting.setHeader (collecting : Collecting base objects count mark lists rt)
    (member : p ∈ objects) (number : Nat) (isMarked : Bool) :
    Collecting base objects (Function.update count p number)
      (Function.update mark p isMarked) lists (rt.setHeader p ⟨number, typeOf base p, isMarked⟩)
    where
  phase := collecting.phase
  holds := collecting.holds
  fields := collecting.fields
  header := by
    intro q isObject
    by_cases isSame : q = p
    · subst isSame
      simp [GCRuntime.setHeader]
    · simp [GCRuntime.setHeader, Function.update_of_ne isSame, collecting.header q isObject]
  freed := by
    intro q outside
    have differ : q ≠ p := by
      rintro rfl
      exact outside member
    simp [GCRuntime.setHeader, Function.update_of_ne differ, collecting.freed q outside]
  listed := collecting.listed

/-- An object goes to the end of another list. -/
theorem Collecting.moveTail (collecting : Collecting base objects count mark lists rt)
    (member : p ∈ objects) {list : GCList} {nodes : List Address}
    (isContent : (lists.erase p).content list = some nodes) {now : Lists}
    (isNow : Function.update (lists.erase p).content list (some (nodes ++ [p])) = now.content) :
    ∃ next, rt.moveTail p list = some next ∧
      Collecting base objects count mark now next := by
  have isListed := (collecting.listed p).mpr member
  obtain ⟨links, moves, holds⟩ := exists_moveTail collecting.holds isListed isContent
  refine ⟨{ rt with links := links }, moves rt rfl, collecting.phase, isNow ▸ holds,
    collecting.fields, collecting.header, collecting.freed, fun q => ?_⟩
  rw [Lists.listed_update (p := p) isContent isNow.symm (by simp [or_comm]),
    Lists.listed_erase collecting.holds, collecting.listed]
  by_cases isSame : q = p
  · subst isSame
    simp [member]
  · simp [isSame]

theorem Collecting.perm {kept aside : List Address}
    (collecting : Collecting base objects count mark ⟨kept, some aside, []⟩ rt)
    (nodup : objects.Nodup) : (kept ++ aside).Perm objects := by
  have apart : (kept ++ aside).Nodup := by
    refine List.nodup_append.mpr ⟨Lists.nodup_elements collecting.holds .gcObjList,
      Lists.nodup_elements collecting.holds .tmpObjList, ?_⟩
    rintro p isKept q isAside rfl
    have isGC : p ∈ Lists.elements ⟨kept, some aside, []⟩ .gcObjList := isKept
    have differ : GCList.tmpObjList ≠ .gcObjList := by simp
    exact Lists.not_mem_of_ne collecting.holds isGC differ isAside
  rw [List.perm_ext_iff_of_nodup apart nodup]
  intro p
  rw [← collecting.listed, Lists.listed_iff]
  simp [Lists.elements, Lists.content]

/-! ## Taking references away -/

/-- An object without references that has been visited waits in the second list. -/
def isAside (count : Address → Nat) (mark : Address → Bool) (p : Address) : Bool :=
  mark p && count p == 0

/-- What is left in the first list and what is in the second one. -/
def Trial (base : Address → Option GCObject) (objects : List Address) (count : Address → Nat)
    (mark : Address → Bool) (rt : GCRuntime) : Prop :=
  ∃ aside, Collecting base objects count mark
      ⟨objects.filter fun p => !isAside count mark p, some aside, []⟩ rt ∧
    ∀ p, p ∈ aside ↔ p ∈ objects ∧ isAside count mark p = true

/-- A count or a mark changes, and the object goes where it belongs. -/
theorem Trial.settle (trial : Trial base objects count mark rt) (nodup : objects.Nodup)
    (member : p ∈ objects) (before : isAside count mark p = false) (number : Nat)
    (isMarked : Bool) :
    ∃ next, (if (number : Int) = 0 ∧ isMarked = true then
        (rt.setHeader p ⟨number, typeOf base p, isMarked⟩).moveTail p .tmpObjList
        else some (rt.setHeader p ⟨number, typeOf base p, isMarked⟩)) = some next ∧
      Trial base objects (Function.update count p number) (Function.update mark p isMarked)
        next := by
  obtain ⟨aside, collecting, isIn⟩ := trial
  have changed := collecting.setHeader member number isMarked
  have notAside : p ∉ aside := by simp [isIn, before]
  have others : ∀ q ≠ p, isAside (Function.update count p number) (Function.update mark p isMarked)
      q = isAside count mark q := by
    intro q differ
    simp [isAside, Function.update_of_ne differ]
  have self : isAside (Function.update count p number) (Function.update mark p isMarked) p =
      (isMarked && number == 0) := by
    simp [isAside]
  have within : ∀ {now : List Address}, (∀ q, q ∈ now ↔ q = p ∧ (isMarked && number == 0) = true ∨
      q ∈ aside) → ∀ q, q ∈ now ↔ q ∈ objects ∧
        isAside (Function.update count p number) (Function.update mark p isMarked) q = true := by
    intro now isNow q
    rw [isNow]
    by_cases isSame : q = p
    · subst isSame
      simp [self, notAside, member]
    · simp [others q isSame, isSame, isIn]
  by_cases moves : (number : Int) = 0 ∧ isMarked = true
  · obtain ⟨zero, rfl⟩ := moves
    obtain rfl : number = 0 := by omega
    have fewer : (objects.filter fun q => !isAside (Function.update count p 0)
        (Function.update mark p true) q) =
          (objects.filter fun q => !isAside count mark q).erase p := by
      rw [(nodup.filter _).erase_eq_filter, List.filter_filter]
      refine List.filter_congr fun q isObject => ?_
      by_cases isSame : q = p
      · subst isSame
        simp [self]
      · simp [others q isSame, isSame]
    let lists : Lists := ⟨objects.filter fun q => !isAside count mark q, some aside, []⟩
    have isTmp : (lists.erase p).content .tmpObjList = some (aside.erase p) := rfl
    obtain ⟨next, runs, moved⟩ := changed.moveTail member isTmp (Lists.update_tmpObj _ _)
    rw [List.erase_of_not_mem notAside] at moved
    refine ⟨next, ?_, aside ++ [p], ?_, within (by simp [or_comm])⟩
    · rw [if_pos ⟨zero, rfl⟩]
      exact runs
    · rw [fewer]
      exact moved
  · rw [if_neg moves]
    have stays : (isMarked && number == 0) = false := by
      by_contra isMoved
      simp only [Bool.not_eq_false, Bool.and_eq_true, beq_iff_eq] at isMoved
      exact moves ⟨by omega, isMoved.1⟩
    have same : (objects.filter fun q => !isAside (Function.update count p number)
        (Function.update mark p isMarked) q) = objects.filter fun q => !isAside count mark q := by
      refine List.filter_congr fun q isObject => ?_
      by_cases isSame : q = p
      · subst isSame
        rw [self, stays, before]
      · rw [others q isSame]
    refine ⟨_, rfl, aside, ?_, within (by simp [stays])⟩
    rw [same]
    exact changed

theorem Trial.exists_gcDecrefChild (trial : Trial base objects count mark rt)
    (nodup : objects.Nodup) (member : p ∈ objects) (positive : 0 < count p) :
    ∃ next, gcDecrefChild p rt = some next ∧
      Trial base objects (Function.update count p (count p - 1)) mark next := by
  have before : isAside count mark p = false := by simp [isAside, positive.ne']
  obtain ⟨next, runs, after⟩ := trial.settle nodup member before (count p - 1) (mark p)
  rw [Function.update_eq_self] at after
  refine ⟨next, ?_, after⟩
  obtain ⟨aside, collecting, -⟩ := trial
  have header := collecting.header p member
  have isCount : ((count p - 1 : Nat) : Int) = (count p : Int) - 1 := by omega
  rw [isCount] at runs
  have isPositive : (0 : Int) < count p := by omega
  simp only [gcDecrefChild, header, Option.bind_eq_bind, Option.bind_some, guard,
    if_pos isPositive, Option.pure_def]
  exact runs

/-- References to children are taken from their counts. -/
theorem Trial.exists_gcDecrefChildren {refs : List GCRef}
    (trial : Trial base objects (fun q => count q + (refs.map GCRef.target).count q) mark rt)
    (nodup : objects.Nodup) (within : ∀ ref ∈ refs, ref.target ∈ objects) :
    ∃ next, refs.foldlM (fun rt ref => gcDecrefChild ref.target rt) rt = some next ∧
      Trial base objects count mark next := by
  induction refs generalizing rt with
  | nil => exact ⟨rt, rfl, by simpa using trial⟩
  | cons ref rest ih =>
      obtain ⟨middle, runs, after⟩ := trial.exists_gcDecrefChild nodup
        (within ref List.mem_cons_self) (by
          simp only [List.map_cons, List.count_cons_self]
          omega)
      have isCount : Function.update
          (fun q => count q + ((ref :: rest).map GCRef.target).count q) ref.target
          (count ref.target + ((ref :: rest).map GCRef.target).count ref.target - 1) =
            fun q => count q + (rest.map GCRef.target).count q := by
        funext q
        by_cases isSame : q = ref.target
        · subst isSame
          rw [Function.update_self, List.map_cons, List.count_cons_self]
          omega
        · rw [Function.update_of_ne isSame, List.map_cons, List.count_cons_of_ne (Ne.symm isSame)]
      rw [isCount] at after
      obtain ⟨next, runsRest, final⟩ :=
        ih after fun other member => within other (List.mem_cons_of_mem _ member)
      refine ⟨next, ?_, final⟩
      rw [List.foldlM_cons, runs]
      exact runsRest

/-- What the objects of a heap refer to. -/
structure Closed (base : Address → Option GCObject) (objects : List Address) : Prop where
  nodup : objects.Nodup
  object : ∀ p ∈ objects, ∃ object, base p = some object
  child : ∀ p ∈ objects, ∀ q ∈ children base p, q ∈ objects

theorem Closed.exists_object (closed : Closed base objects) (member : p ∈ objects) :
    ∃ object, base p = some object ∧ children base p = object.marks.map GCRef.target ∧
      ∀ ref ∈ object.marks, ref.target ∈ objects := by
  obtain ⟨object, isObject⟩ := closed.object p member
  have isChildren : children base p = object.marks.map GCRef.target := by
    rw [children, isObject]
  refine ⟨object, isObject, isChildren, fun ref isRef => closed.child p member _ ?_⟩
  rw [isChildren]
  exact List.mem_map_of_mem isRef

/-- The references of an object are taken away, then it is marked. -/
theorem Trial.exists_gcDecrefBody (closed : Closed base objects) (member : p ∈ objects)
    (trial : Trial base objects (fun q => count q + (children base p).count q) mark rt)
    (unmarked : mark p = false) :
    ∃ next, gcDecrefBody p rt = some next ∧
      Trial base objects count (Function.update mark p true) next := by
  obtain ⟨object, isObject, isChildren, within⟩ := closed.exists_object member
  obtain ⟨aside, collecting, isIn⟩ := trial
  have header := collecting.header p member
  rw [isChildren] at collecting isIn
  obtain ⟨middle, runs, taken⟩ :=
    Trial.exists_gcDecrefChildren ⟨aside, collecting, isIn⟩ closed.nodup within
  obtain ⟨next, settles, after⟩ :=
    taken.settle closed.nodup member (by simp [isAside, unmarked]) (count p) true
  rw [Function.update_eq_self] at after
  refine ⟨next, ?_, after⟩
  obtain ⟨others, collectingMiddle, -⟩ := taken
  have headerMiddle := collectingMiddle.header p member
  have isFields : rt.fields p = some object := by rw [collecting.fields, isObject]
  simp only [gcDecrefBody, header, Option.bind_eq_bind, Option.bind_some, guard, unmarked,
    if_true, Option.pure_def, markChildren, isFields, runs, headerMiddle]
  simpa only [and_true] using settles

/-- `gc_decref` leaves the references from outside. -/
theorem Trial.exists_gcDecref (closed : Closed base objects) {external : Address → Nat}
    (collecting : Collecting base objects
      (fun q => external q + references (children base) objects q) (fun _ => false)
      ⟨objects, none, []⟩ rt)
    {fuel : Nat} (enough : objects.length < fuel) :
    ∃ next, gcDecref fuel rt = some next ∧
      Trial base objects external (fun p => decide (p ∈ objects)) next := by
  let invariant (rest : List Address) (state : GCRuntime) : Prop := ∃ done,
    objects = done ++ rest ∧ Trial base objects
      (fun q => external q + references (children base) rest q) (fun p => decide (p ∈ done)) state
  have walks : ∀ node rest state, invariant (node :: rest) state →
      state.links.next (.node node) = some (Links.firstCell .gcObjList rest) := by
    rintro node rest state ⟨done, isAll, aside, here, -⟩
    have apart := List.nodup_append.mp (isAll ▸ closed.nodup)
    have kept : ∀ q ∈ node :: rest, (!isAside (fun q => external q +
        references (children base) (node :: rest) q) (fun p => decide (p ∈ done)) q) = true := by
      intro q member
      have notDone : q ∉ done := fun isDone => apart.2.2 q isDone q member rfl
      simp [isAside, notDone]
    apply here.holds.next_node
    simp only [Lists.content]
    rw [isAll, List.filter_append, List.filter_eq_self.mpr kept]
  have step : ∀ node rest state, invariant (node :: rest) state → ∃ after,
      gcDecrefBody node state = some after ∧ invariant rest after := by
    rintro node rest state ⟨done, isAll, trial⟩
    have apart := List.nodup_append.mp (isAll ▸ closed.nodup)
    have member : node ∈ objects := by simp [isAll]
    have isCount : (fun q => external q + references (children base) (node :: rest) q) =
        fun q => external q + references (children base) rest q + (children base node).count q := by
      funext q
      rw [references_cons]
      omega
    rw [isCount] at trial
    have unmarked : node ∉ done := fun isDone => apart.2.2 node isDone node List.mem_cons_self rfl
    obtain ⟨after, runs, result⟩ :=
      Trial.exists_gcDecrefBody closed member trial (by simpa using unmarked)
    refine ⟨after, runs, done ++ [node], by simp [isAll], ?_⟩
    have isMark : Function.update (fun p => decide (p ∈ done)) node true =
        fun p => decide (p ∈ done ++ [node]) := by
      funext q
      by_cases isSame : q = node
      · subst isSame
        simp
      · simp [isSame]
    rw [isMark] at result
    exact result
  have holds := collecting.holds.init .tmpObjList
  rw [Lists.update_tmpObj] at holds
  have isEmpty : (objects.filter fun p => !isAside
      (fun q => external q + references (children base) objects q) (fun p => decide (p ∈ [])) p) =
        objects := by
    refine List.filter_eq_self.mpr fun p _ => ?_
    simp [isAside]
  have start : invariant objects { rt with links := rt.links.initListHead .tmpObjList } := by
    refine ⟨[], rfl, [], ?_, by simp [isAside]⟩
    rw [isEmpty]
    refine ⟨collecting.phase, holds, collecting.fields, ?_, collecting.freed, ?_⟩
    · simpa using collecting.header
    · intro p
      simp [Lists.listed_iff, Lists.elements, Lists.content]
  have isGC : (⟨objects, some [], []⟩ : Lists).content .gcObjList = some objects := rfl
  have first := holds.next_head isGC
  obtain ⟨next, runs, done, isAll, trial⟩ := listForEachSafe_of_steps walks step start enough
  refine ⟨next, ?_, ?_⟩
  · simp only [gcDecref, first, Option.bind_eq_bind, Option.bind_some]
    exact runs
  · obtain rfl : objects = done := by simpa using isAll
    simpa [references] using trial

/-! ## Giving references back -/

/-- A reference is given back; a child that was to be freed is kept. -/
theorem Collecting.exists_gcScanIncrefChild {kept aside : List Address}
    (collecting : Collecting base objects count mark ⟨kept, some aside, []⟩ rt)
    (isAside : ∀ q ∈ objects, q ∈ aside ↔ count q = 0) (member : p ∈ objects) :
    ∃ next marked, gcScanIncrefChild p rt = some next ∧
      Collecting base objects (Function.update count p (count p + 1)) marked
        ⟨(increfChild (kept, aside) p).1, some (increfChild (kept, aside) p).2, []⟩ next ∧
      (∀ q ∈ objects, q ∈ (increfChild (kept, aside) p).2 ↔
        Function.update count p (count p + 1) q = 0) ∧
      ∀ q, mark q = false → marked q = false := by
  have header := collecting.header p member
  have isCount : ((count p : Int) + 1) = ((count p + 1 : Nat) : Int) := by omega
  by_cases doomed : p ∈ aside
  · have zero := (isAside p member).mp doomed
    have changed := collecting.setHeader member (count p + 1) false
    have isGC : (Lists.erase ⟨kept, some aside, []⟩ p).content .gcObjList =
        some (kept.erase p) := rfl
    obtain ⟨next, moves, moved⟩ := changed.moveTail member isGC (Lists.update_gcObj _ _)
    have isTmp : p ∈ Lists.elements ⟨kept, some aside, []⟩ .tmpObjList := doomed
    have differ : GCList.gcObjList ≠ .tmpObjList := by simp
    have notKept : p ∉ kept := Lists.not_mem_of_ne collecting.holds isTmp differ
    have gone : p ∉ aside.erase p :=
      (Lists.nodup_elements collecting.holds .tmpObjList).not_mem_erase
    rw [List.erase_of_not_mem notKept] at moved
    rw [increfChild_of_mem doomed]
    refine ⟨next, Function.update mark p false, ?_, moved, ?_, ?_⟩
    · simp only [gcScanIncrefChild, header, Option.bind_eq_bind, Option.bind_some, zero]
      rw [zero] at moves
      exact moves
    · intro q isObject
      by_cases isSame : q = p
      · subst isSame
        simp [gone]
      · rw [Function.update_of_ne isSame, List.mem_erase_of_ne isSame]
        exact isAside q isObject
    · intro q unmarked
      by_cases isSame : q = p
      · subst isSame
        simp
      · rwa [Function.update_of_ne isSame]
  · have positive : count p ≠ 0 := mt (isAside p member).mpr doomed
    have changed := collecting.setHeader member (count p + 1) (mark p)
    rw [Function.update_eq_self p mark] at changed
    rw [increfChild_of_not_mem doomed]
    refine ⟨_, mark, ?_, changed, ?_, fun q => id⟩
    · have notOne : (count p : Int) + 1 ≠ 1 := by omega
      simp only [gcScanIncrefChild, header, Option.bind_eq_bind, Option.bind_some, if_neg notOne]
      rfl
    · intro q isObject
      by_cases isSame : q = p
      · subst isSame
        simp [doomed]
      · rw [Function.update_of_ne isSame]
        exact isAside q isObject

/-- One more reference to each of the targets. -/
theorem update_count_cons (count : Address → Nat) (ref : GCRef) (rest : List GCRef) :
    (fun q => Function.update count ref.target (count ref.target + 1) q +
        (rest.map GCRef.target).count q) =
      fun q => count q + ((ref :: rest).map GCRef.target).count q := by
  funext q
  by_cases isSame : q = ref.target
  · subst isSame
    rw [Function.update_self, List.map_cons, List.count_cons_self]
    omega
  · rw [Function.update_of_ne isSame, List.map_cons, List.count_cons_of_ne (Ne.symm isSame)]

theorem Collecting.exists_gcScanIncrefChildren {refs : List GCRef} {kept aside : List Address}
    (collecting : Collecting base objects count mark ⟨kept, some aside, []⟩ rt)
    (isAside : ∀ q ∈ objects, q ∈ aside ↔ count q = 0)
    (within : ∀ ref ∈ refs, ref.target ∈ objects) :
    ∃ next marked, refs.foldlM (fun rt ref => gcScanIncrefChild ref.target rt) rt = some next ∧
      Collecting base objects (fun q => count q + (refs.map GCRef.target).count q) marked
        ⟨((refs.map GCRef.target).foldl increfChild (kept, aside)).1,
          some ((refs.map GCRef.target).foldl increfChild (kept, aside)).2, []⟩ next ∧
      (∀ q ∈ objects, q ∈ ((refs.map GCRef.target).foldl increfChild (kept, aside)).2 ↔
        count q + (refs.map GCRef.target).count q = 0) ∧
      ∀ q, mark q = false → marked q = false := by
  induction refs generalizing rt count mark kept aside with
  | nil => exact ⟨rt, mark, rfl, by simpa using collecting, by simpa using isAside, fun q => id⟩
  | cons ref rest ih =>
      obtain ⟨middle, between, runs, after, isLeft, stays⟩ :=
        collecting.exists_gcScanIncrefChild isAside (within ref List.mem_cons_self)
      obtain ⟨next, marked, runsRest, final, isLast, staysRest⟩ :=
        ih after isLeft fun other member => within other (List.mem_cons_of_mem _ member)
      refine ⟨next, marked, ?_, ?_, ?_, fun q unmarked => staysRest q (stays q unmarked)⟩
      · rw [List.foldlM_cons, runs]
        exact runsRest
      · rw [update_count_cons] at final
        exact final
      · intro q isObject
        rw [← congrFun (update_count_cons count ref rest) q]
        exact isLast q isObject

/-- The first `done` objects of what is kept have been visited. -/
def Scanning (base : Address → Option GCObject) (objects : List Address)
    (external : Address → Nat) (done todo aside : List Address) (rt : GCRuntime) : Prop :=
  ∃ mark, Collecting base objects (fun q => external q + references (children base) done q) mark
      ⟨done ++ todo, some aside, []⟩ rt ∧
    (∀ q ∈ objects, q ∈ aside ↔ external q + references (children base) done q = 0) ∧
    ∀ q ∈ done, mark q = false

theorem Scanning.exists_gcScanBody (closed : Closed base objects) {external : Address → Nat}
    {done rest aside : List Address}
    (scanning : Scanning base objects external done (p :: rest) aside rt) :
    ∃ next, gcScanBody p rt = some next ∧
      Scanning base objects external (done ++ [p])
        ((children base p).foldl increfChild (rest, aside)).1
        ((children base p).foldl increfChild (rest, aside)).2 next := by
  obtain ⟨mark, collecting, isAside, unmarked⟩ := scanning
  have member : p ∈ objects := by
    rw [← collecting.listed, Lists.listed_iff]
    simp
  obtain ⟨object, isObject, isChildren, within⟩ := closed.exists_object member
  have notAside : p ∉ aside := by
    have isGC : p ∈ Lists.elements ⟨done ++ p :: rest, some aside, []⟩ .gcObjList :=
      List.mem_append_right done List.mem_cons_self
    have differ : GCList.tmpObjList ≠ .gcObjList := by simp
    exact Lists.not_mem_of_ne collecting.holds isGC differ
  have positive := mt (isAside p member).mpr notAside
  have changed := collecting.setHeader member
    (external p + references (children base) done p) false
  rw [Function.update_eq_self p] at changed
  obtain ⟨next, marked, runs, after, isLeft, stays⟩ :=
    changed.exists_gcScanIncrefChildren isAside within
  have isKept : done ++ p :: rest = (done ++ [p]) ++ rest := by simp
  rw [isKept, ← isChildren, foldl_increfChild_append] at after isLeft
  have isCount : (fun q => external q + references (children base) done q +
      (children base p).count q) =
        fun q => external q + references (children base) (done ++ [p]) q := by
    funext q
    rw [references_append, references_cons, references_nil]
    omega
  rw [isCount] at after
  refine ⟨next, ?_, marked, after, ?_, ?_⟩
  · have header := collecting.header p member
    have isFields : rt.fields p = some object := by rw [collecting.fields, isObject]
    have isPositive : (0 : Int) < (external p + references (children base) done p : Nat) := by
      omega
    simp only [gcScanBody, header, Option.bind_eq_bind, Option.bind_some, guard,
      if_pos isPositive, Option.pure_def, markChildren, GCRuntime.setHeader, isFields]
    exact runs
  · intro q isObject
    rw [← congrFun isCount q]
    exact isLeft q isObject
  · intro q isDone
    apply stays
    rcases List.mem_append.mp isDone with before | isLast
    · by_cases isSame : q = p
      · subst isSame
        simp
      · rw [Function.update_of_ne isSame]
        exact unmarked q before
    · obtain rfl := List.mem_singleton.mp isLast
      simp

theorem Collecting.exists_gcScanIncrefChildren2 {refs : List GCRef}
    (collecting : Collecting base objects count mark lists rt)
    (within : ∀ ref ∈ refs, ref.target ∈ objects) :
    ∃ next, refs.foldlM (fun rt ref => gcScanIncrefChild2 ref.target rt) rt = some next ∧
      Collecting base objects (fun q => count q + (refs.map GCRef.target).count q) mark lists
        next := by
  induction refs generalizing rt count with
  | nil => exact ⟨rt, rfl, by simpa using collecting⟩
  | cons ref rest ih =>
      have member := within ref List.mem_cons_self
      have changed := collecting.setHeader member (count ref.target + 1) (mark ref.target)
      rw [Function.update_eq_self ref.target mark] at changed
      obtain ⟨next, runsRest, final⟩ :=
        ih changed fun other isRest => within other (List.mem_cons_of_mem _ isRest)
      rw [update_count_cons] at final
      refine ⟨next, ?_, final⟩
      have header := collecting.header ref.target member
      simp only [List.foldlM_cons, gcScanIncrefChild2, header, Option.bind_eq_bind,
        Option.bind_some, Option.pure_def]
      exact runsRest

/-- The first loop of `gc_scan` keeps what is referred to from outside and what
that leads to. -/
theorem Scanning.exists_listForEach (closed : Closed base objects) {external : Address → Nat}
    {todo doomed : List Address} (scanning : Scanning base objects external [] todo doomed rt)
    {fuel : Nat} (enough : objects.length < fuel) :
    ∃ next aside, listForEach GCRuntime.links gcScanBody .gcObjList fuel
        (Links.firstCell .gcObjList todo) rt = some next ∧
      Scanning base objects external (scan (children base) todo doomed) [] aside next := by
  let invariant (size : Nat) (left : List Address) (state : GCRuntime) : Prop :=
    ∃ done aside, size = left.length + aside.length ∧
      Scanning base objects external done left aside state ∧
      done ++ scan (children base) left aside = scan (children base) todo doomed
  have step : ∀ size node rest state, invariant size (node :: rest) state →
      ∃ after left smaller, gcScanBody node state = some after ∧ invariant smaller left after ∧
        after.links.next (.node node) = some (Links.firstCell .gcObjList left) ∧
          smaller < size := by
    rintro size node rest state ⟨done, aside, rfl, here, isAll⟩
    obtain ⟨after, runs, result⟩ := Scanning.exists_gcScanBody closed here
    refine ⟨after, _, _, runs, ⟨done ++ [node], _, rfl, result, ?_⟩, ?_, ?_⟩
    · rw [← isAll, scan, List.append_assoc, List.singleton_append]
    · obtain ⟨mark, collecting, -⟩ := result
      exact collecting.holds.next_node (congrArg some (List.append_assoc done [node] _))
    · rw [length_foldl_increfChild]
      simp only [List.length_cons]
      omega
  have isSize : todo.length + doomed.length = objects.length := by
    obtain ⟨mark, collecting, -⟩ := scanning
    simpa using (collecting.perm closed.nodup).length_eq
  obtain ⟨next, size, runs, done, aside, -, result, isAll⟩ :=
    listForEach_of_steps step ⟨[], doomed, rfl, scanning, rfl⟩ (isSize.trans_lt enough)
  rw [scan_nil, List.append_nil] at isAll
  exact ⟨next, aside, runs, isAll ▸ result⟩

/-- The second loop of `gc_scan` gives back the references of what is freed. -/
theorem Collecting.exists_listForEach (closed : Closed base objects) {external : Address → Nat}
    {kept aside : List Address}
    (collecting : Collecting base objects
      (fun q => external q + references (children base) kept q) mark ⟨kept, some aside, []⟩ rt)
    {fuel : Nat} (enough : objects.length < fuel) :
    ∃ next, listForEach GCRuntime.links (markChildren gcScanIncrefChild2) .tmpObjList fuel
        (Links.firstCell .tmpObjList aside) rt = some next ∧
      Collecting base objects (fun q => external q + references (children base) objects q) mark
        ⟨kept, some aside, []⟩ next := by
  let invariant (size : Nat) (left : List Address) (state : GCRuntime) : Prop :=
    ∃ visited, aside = visited ++ left ∧ size = left.length ∧ Collecting base objects
      (fun q => external q + references (children base) (kept ++ visited) q) mark
        ⟨kept, some aside, []⟩ state
  have perm := collecting.perm closed.nodup
  have step : ∀ size node rest state, invariant size (node :: rest) state →
      ∃ after left smaller, markChildren gcScanIncrefChild2 node state = some after ∧
        invariant smaller left after ∧
          after.links.next (.node node) = some (Links.firstCell .tmpObjList left) ∧
            smaller < size := by
    rintro size node rest state ⟨visited, isAll, rfl, here⟩
    have member : node ∈ objects := by
      rw [← perm.mem_iff, isAll]
      simp
    obtain ⟨object, isObject, isChildren, within⟩ := closed.exists_object member
    obtain ⟨after, runs, result⟩ := here.exists_gcScanIncrefChildren2 within
    have isCount : (fun q => external q + references (children base) (kept ++ visited) q +
        (object.marks.map GCRef.target).count q) =
          fun q => external q + references (children base) (kept ++ (visited ++ [node])) q := by
      funext q
      rw [← isChildren, ← List.append_assoc, references_append _ (kept ++ visited),
        references_cons, references_nil]
      omega
    rw [isCount] at result
    refine ⟨after, rest, rest.length, ?_, ⟨visited ++ [node], by simp [isAll], rfl, result⟩,
      result.holds.next_node (congrArg some isAll), Nat.lt_succ_self _⟩
    have isFields : state.fields node = some object := by rw [here.fields, isObject]
    simp only [markChildren, isFields, Option.bind_eq_bind, Option.bind_some]
    exact runs
  have fewer : aside.length ≤ objects.length := by
    rw [← perm.length_eq, List.length_append]
    omega
  have start : invariant aside.length aside rt := ⟨[], rfl, rfl, by simpa using collecting⟩
  obtain ⟨next, size, runs, visited, isAll, -, result⟩ :=
    listForEach_of_steps step start (fewer.trans_lt enough)
  have isCount : (fun q => external q + references (children base) (kept ++ visited) q) =
      fun q => external q + references (children base) objects q := by
    funext q
    rw [List.append_nil] at isAll
    rw [← isAll, references_perm _ perm]
  rw [isCount] at result
  exact ⟨next, runs, result⟩

/-- `gc_scan` gives all references back. -/
theorem Scanning.exists_gcScan (closed : Closed base objects) {external : Address → Nat}
    {todo doomed : List Address} (scanning : Scanning base objects external [] todo doomed rt)
    {fuel : Nat} (enough : objects.length < fuel) :
    ∃ next aside mark, gcScan fuel rt = some next ∧
      Collecting base objects
        (fun q => external q + references (children base) objects q) mark
        ⟨scan (children base) todo doomed, some aside, []⟩ next ∧
      (∀ q ∈ objects, q ∈ aside ↔ external q +
        references (children base) (scan (children base) todo doomed) q = 0) ∧
      ∀ q ∈ scan (children base) todo doomed, mark q = false := by
  obtain ⟨middle, aside, runs, mark, collecting, isAside, unmarked⟩ :=
    Scanning.exists_listForEach closed scanning enough
  rw [List.append_nil] at collecting
  obtain ⟨next, runsRest, result⟩ := Collecting.exists_listForEach closed collecting enough
  refine ⟨next, aside, mark, ?_, result, isAside, unmarked⟩
  obtain ⟨_, start, -⟩ := scanning
  have isGC : Lists.content ⟨[] ++ todo, some doomed, []⟩ .gcObjList = some todo := rfl
  have isTmp : Lists.content ⟨scan (children base) todo doomed, some aside, []⟩ .tmpObjList =
      some aside := rfl
  simp only [gcScan, start.holds.next_head isGC, collecting.holds.next_head isTmp, runs,
    Option.bind_eq_bind, Option.bind_some]
  exact runsRest

end Jib.QuickJS.GCRuntime
