import Jib.QuickJSCollections

/-!
# Runs of a QuickJS runtime

What a program does with the objects of a runtime: it creates them, duplicates and
gives up references, sets properties and collects cycles.  As long as it gives up
only references that it has and no count passes that of an `int`, every run goes
through, and nothing that it can reach is ever freed.  A program makes no records in
a `WeakMap` or a `WeakSet`: with them, objects that are freed change others.
-/

namespace Jib.QuickJS.GCRuntime

open LinkedLists CycleCollection

/-- `JS_NewRuntime`; the second list is initialized by `gc_decref`. -/
def jsNewRuntime : GCRuntime where
  links := ((⟨fun _ => none, fun _ => none⟩ : Links GCList Address).initListHead
    .gcObjList).initListHead .gcZeroRefCountList
  gcPhase := .none
  headers := fun _ => none
  fields := fun _ => none

/-- `JS_FreeValue`.  A string that is freed is no object of the collector. -/
def freeValue (fuel : Nat) (value : GCValue) (rt : GCRuntime) : Option GCRuntime :=
  match value with
  | some p => jsFreeValue fuel p rt
  | none => some rt

/-- `set_value` of a property of an object. -/
def setValue (fuel : Nat) (p : Address) (index : Nat) (newVal : GCValue) (rt : GCRuntime) :
    Option GCRuntime :=
  match rt.fields p with
  | some (.jsObject sh properties classData) =>
      match properties[index]? with
      | some (.normal oldVal) =>
          freeValue fuel oldVal { rt with
            fields := Function.update rt.fields p
              (some (.jsObject sh (properties.set index (.normal newVal)) classData)) }
      | _ => none
  | _ => none

variable {external left : Address → Nat} {objects : List Address} {rt : GCRuntime}
  {p q : Address}

/-! ## What operations do to a heap -/

/-- Every reference is to an object of its type. -/
def Suited (fields : Address → Option GCObject) (refs : List GCRef) : Prop :=
  ∀ ref ∈ refs, ∃ target, fields ref.target = some target ∧ ref.Suits target.gcObjType

theorem Sound.headers_iff (sound : Sound external objects rt) (p : Address) :
    rt.headers p ≠ none ↔ p ∈ objects := by
  constructor
  · intro inUse
    by_contra outside
    exact inUse (sound.freed p outside).1
  · intro member
    obtain ⟨object, -, header, -⟩ := sound.object p member
    simp [header]

theorem Suited.replace {fields : Address → Option GCObject} {refs : List GCRef}
    (suits : Suited fields refs) {old new : GCObject} (isObject : fields p = some old)
    (sameType : new.gcObjType = old.gcObjType) :
    Suited (Function.update fields p (some new)) refs := by
  intro ref isRef
  obtain ⟨target, isTarget, isSuited⟩ := suits ref isRef
  by_cases isSame : ref.target = p
  · rw [isSame] at isTarget ⊢
    obtain rfl : old = target := Option.some_inj.mp (isObject.symm.trans isTarget)
    exact ⟨new, Function.update_self .., sameType ▸ isSuited⟩
  · exact ⟨target, (Function.update_of_ne isSame _ _).trans isTarget, isSuited⟩

theorem sound_jsNewRuntime : Sound (fun _ => 0) [] jsNewRuntime := by
  have nothing : (⟨fun _ => none, fun _ => none⟩ : Links GCList Address).Holds fun _ => none :=
    ⟨by simp, by simp, by simp⟩
  have holds := (nothing.init .gcObjList).init .gcZeroRefCountList
  have isContent : Function.update (Function.update (fun _ => none) GCList.gcObjList (some []))
      GCList.gcZeroRefCountList (some []) = (⟨[], none, []⟩ : Lists).content := by
    funext list
    cases list <;> rfl
  rw [isContent] at holds
  exact ⟨rfl, holds, by simp, fun _ _ => ⟨rfl, rfl⟩, by simp, by simp⟩

/-- Every count is one of an `int`. -/
def Fits (rt : GCRuntime) : Prop :=
  ∀ p header, rt.headers p = some header → header.refCount < 2 ^ 31

theorem Fits.update (fits : Fits rt) {next : GCRuntime} {header : GCObjectHeader}
    (headers : next.headers = Function.update rt.headers p (some header))
    (inRange : header.refCount < 2 ^ 31) : Fits next := by
  intro q other isHeader
  rw [headers] at isHeader
  by_cases isSame : q = p
  · subst isSame
    obtain rfl : header = other := by simpa using isHeader
    exact inRange
  · exact fits q other (by rwa [Function.update_of_ne isSame] at isHeader)

/-- Where references are given up and objects freed, no count grows. -/
theorem Sound.fits_of_fewer {next : GCRuntime} {rest : List Address}
    (sound : Sound external objects rt) (soundNow : Sound left rest next)
    (gives : ∀ q, left q ≤ external q) (within : rest ⊆ objects)
    (fields : ∀ q ∈ rest, next.fields q = rt.fields q) (fits : Fits rt) : Fits next := by
  intro p header isHeader
  have member : p ∈ rest := (soundNow.headers_iff p).mp (by simp [isHeader])
  obtain ⟨object, -, headerNow, -⟩ := soundNow.object p member
  obtain ⟨before, -, headerBefore, -⟩ := sound.object p (within member)
  obtain rfl := Option.some_inj.mp (isHeader.symm.trans headerNow)
  have fewer : counted left rest next.fields p ≤ counted external objects rt.fields p := by
    rw [counted, counted, children_congr fields]
    exact Nat.add_le_add (gives p) (references_le _ soundNow.nodup within p)
  have inRange := fits p _ headerBefore
  simp only at inRange ⊢
  omega

/-- The caller gets the only reference to an object that it creates, and gives those
that the object has. -/
theorem Sound.exists_addGCObject (sound : Sound external objects rt) {object : GCObject}
    (fresh : p ∉ objects) (suits : Suited rt.fields object.marks)
    (gives : ∀ q, external q = left q + (object.marks.map GCRef.target).count q) :
    ∃ next, rt.addGCObject p object = some next ∧
      Sound (fun q => left q + [p].count q) (objects ++ [p]) next ∧
      next.fields = Function.update rt.fields p (some object) := by
  have isGC : (⟨objects, none, []⟩ : Lists).content .gcObjList = some objects := rfl
  have isFresh : Links.Fresh (⟨objects, none, []⟩ : Lists).content p := by
    intro list nodes isContent
    cases list with
    | gcObjList =>
        obtain rfl : objects = nodes := by simpa [Lists.content] using isContent
        exact fresh
    | tmpObjList => simp [Lists.content] at isContent
    | gcZeroRefCountList =>
        obtain rfl : [] = nodes := by simpa [Lists.content] using isContent
        simp
  obtain ⟨links, adds, holds⟩ := sound.holds.listAddTail isGC isFresh
  rw [Lists.update_gcObj] at holds
  let fields := Function.update rt.fields p (some object)
  have others : ∀ q ≠ p, fields q = rt.fields q := fun q differ => Function.update_of_ne differ _ _
  have old : ∀ q ∈ objects, q ≠ p := by
    rintro q member rfl
    exact fresh member
  have kept : ∀ {q target}, rt.fields q = some target → fields q = some target := by
    intro q target isTarget
    rw [others q (old q (sound.exists_of_fields isTarget)), isTarget]
  have counts : ∀ q, counted (fun q => left q + [p].count q) (objects ++ [p]) fields q =
      counted external objects rt.fields q + [p].count q := by
    intro q
    have own : children fields p = object.marks.map GCRef.target := by
      simp [children, fields]
    rw [counted, counted, references_append, references_cons, references_nil, own, gives,
      children_congr fun q member => others q (old q member)]
    omega
  have nothing : counted external objects rt.fields p = 0 := by
    by_contra refers
    exact fresh (sound.mem_of_counted (Nat.pos_of_ne_zero refers))
  refine ⟨{ rt with
    links := links
    headers := Function.update rt.headers p (some ⟨1, object.gcObjType, false⟩)
    fields := fields }, by simp [addGCObject, adds, fields],
    ⟨sound.phase, holds, ?_, ?_, ?_, ?_⟩, rfl⟩
  · intro q member
    rcases List.mem_append.mp member with before | isNew
    · obtain ⟨target, isTarget, header, isSuited⟩ := sound.object q before
      have differ := old q before
      refine ⟨target, kept isTarget, ?_, fun ref isRef => ?_⟩
      · simp [Function.update_of_ne differ, header, counts, differ.symm]
      · obtain ⟨other, isOther, suitsOther⟩ := isSuited ref isRef
        exact ⟨other, kept isOther, suitsOther⟩
    · obtain rfl := List.mem_singleton.mp isNew
      refine ⟨object, by simp [fields], by simp [counts, nothing], fun ref isRef => ?_⟩
      obtain ⟨other, isOther, suitsOther⟩ := suits ref isRef
      exact ⟨other, kept isOther, suitsOther⟩
  · intro q outside
    have differ : q ≠ p := by
      rintro rfl
      simp at outside
    have notOld : q ∉ objects := fun member => outside (List.mem_append_left _ member)
    exact ⟨(Function.update_of_ne differ _ _).trans (sound.freed q notOld).1,
      (others q differ).trans (sound.freed q notOld).2⟩
  · intro q member
    rw [counts]
    rcases List.mem_append.mp member with before | isNew
    · exact Nat.add_pos_left (sound.positive q before) _
    · obtain rfl := List.mem_singleton.mp isNew
      simp
  · intro q isOutside
    by_cases isSame : q = p
    · simp [isSame]
    · refine List.mem_append_left _ (sound.outside q ?_)
      have given := gives q
      rw [List.count_eq_zero_of_not_mem (by simpa using isSame)] at isOutside
      omega

/-- A reference is duplicated. -/
theorem Sound.exists_jsDupValue (sound : Sound external objects rt) (member : p ∈ objects) :
    ∃ next, jsDupValue p rt = some next ∧
      Sound (fun q => external q + [p].count q) objects next ∧ next.fields = rt.fields := by
  obtain ⟨object, isObject, header, -⟩ := sound.object p member
  have counts : ∀ q, counted (fun q => external q + [p].count q) objects rt.fields q =
      counted external objects rt.fields q + [p].count q := by
    intro q
    simp only [counted]
    omega
  refine ⟨rt.setHeader p ⟨counted external objects rt.fields p + 1, object.gcObjType, false⟩,
    by simp [jsDupValue, header], ⟨sound.phase, sound.holds, ?_, ?_, ?_, ?_⟩, rfl⟩
  · intro q isIn
    obtain ⟨target, isTarget, headerTarget, isSuited⟩ := sound.object q isIn
    refine ⟨target, isTarget, ?_, isSuited⟩
    by_cases isSame : q = p
    · subst isSame
      obtain rfl : object = target := Option.some_inj.mp (isObject.symm.trans isTarget)
      simp [setHeader, counts]
    · simp [setHeader, Function.update_of_ne isSame, headerTarget, counts, Ne.symm isSame]
  · intro q outside
    have differ : q ≠ p := by
      rintro rfl
      exact outside member
    exact ⟨(Function.update_of_ne differ _ _).trans (sound.freed q outside).1,
      (sound.freed q outside).2⟩
  · intro q isIn
    exact (counts q).symm ▸ Nat.add_pos_left (sound.positive q isIn) _
  · intro q isOutside
    by_cases isSame : q = p
    · exact isSame ▸ member
    · refine sound.outside q ?_
      rw [List.count_eq_zero_of_not_mem (by simpa using isSame)] at isOutside
      omega

/-- An object gets other fields, with references that the caller gives for others
that it gets. -/
theorem Sound.replace (sound : Sound external objects rt) {old new : GCObject}
    (isObject : rt.fields p = some old) (sameType : new.gcObjType = old.gcObjType)
    (suits : Suited rt.fields new.marks)
    (gives : ∀ q, left q + (new.marks.map GCRef.target).count q =
      external q + (old.marks.map GCRef.target).count q) :
    Sound left objects { rt with fields := Function.update rt.fields p (some new) } := by
  let fields := Function.update rt.fields p (some new)
  have member := sound.exists_of_fields isObject
  have others : ∀ q ≠ p, fields q = rt.fields q := fun q differ => Function.update_of_ne differ _ _
  have counts : ∀ q, counted left objects fields q = counted external objects rt.fields q := by
    intro q
    have before : children rt.fields p = old.marks.map GCRef.target := by rw [children, isObject]
    have after : children fields p = new.marks.map GCRef.target := by simp [children, fields]
    have perm := List.perm_cons_erase member
    have unchanged : ∀ r ∈ objects.erase p, fields r = rt.fields r := by
      intro r isRest
      refine others r ?_
      rintro rfl
      exact sound.nodup.not_mem_erase isRest
    have balance := gives q
    simp only [counted, references_perm _ perm, references_cons, before, after,
      children_congr unchanged]
    omega
  refine ⟨sound.phase, sound.holds, ?_, ?_, ?_, ?_⟩
  · intro q isIn
    obtain ⟨target, isTarget, header, isSuited⟩ := sound.object q isIn
    have isSuited : Suited rt.fields target.marks := isSuited
    by_cases isSame : q = p
    · subst isSame
      obtain rfl : old = target := Option.some_inj.mp (isObject.symm.trans isTarget)
      exact ⟨new, by simp, by rw [header, counts, sameType], suits.replace isObject sameType⟩
    · exact ⟨target, by rw [← isTarget]; exact others q isSame, by rw [header, counts],
        isSuited.replace isObject sameType⟩
  · intro q outside
    have differ : q ≠ p := by
      rintro rfl
      exact outside member
    exact ⟨(sound.freed q outside).1, (others q differ).trans (sound.freed q outside).2⟩
  · intro q isIn
    exact (counts q).symm ▸ sound.positive q isIn
  · intro q isOutside
    refine sound.mem_of_counted ?_
    rw [← counts]
    exact Nat.add_pos_left isOutside _

/-- A value that is no object can be freed at any time. -/
theorem Sound.exists_freeValue (sound : Sound external objects rt) {value : GCValue}
    (suits : Suited rt.fields (GCValue.refs value))
    (gives : ∀ q, external q = left q + ((GCValue.refs value).map GCRef.target).count q)
    {fuel : Nat} (enough : objects.length < fuel) :
    ∃ next rest, freeValue fuel value rt = some next ∧ Sound left rest next ∧
      rest.Subperm objects ∧ ∀ q ∈ rest, next.fields q = rt.fields q := by
  cases value with
  | none =>
      obtain rfl : external = left := by
        funext q
        simpa [GCValue.refs] using gives q
      exact ⟨rt, objects, rfl, sound, .refl _, fun _ _ => rfl⟩
  | some p =>
      obtain ⟨target, isTarget, isSuited⟩ := suits (.value p) (by simp [GCValue.refs])
      exact sound.exists_freeRef isTarget isSuited gives enough

/-- A property takes the place of another one. -/
theorem count_refs_set {properties : List JSProperty} {index : Nat} {property : JSProperty}
    (isThere : properties[index]? = some property) (new : JSProperty) (q : Address) :
    (((properties.set index new).flatMap JSProperty.refs).map GCRef.target).count q +
        (property.refs.map GCRef.target).count q =
      ((properties.flatMap JSProperty.refs).map GCRef.target).count q +
        (new.refs.map GCRef.target).count q := by
  induction properties generalizing index with
  | nil => simp at isThere
  | cons first rest ih =>
      cases index with
      | zero =>
          obtain rfl : first = property := by simpa using isThere
          simp only [List.set_cons_zero, List.flatMap_cons, List.map_append, List.count_append]
          omega
      | succ index =>
          have inRest := ih (by simpa using isThere)
          simp only [List.set_cons_succ, List.flatMap_cons, List.map_append, List.count_append]
          omega

/-- A property is set: the caller gives the new value, and the old one is given up. -/
theorem Sound.exists_setValue (sound : Sound external objects rt) {sh : Address}
    {properties : List JSProperty} {classData : ClassData} {index : Nat} {oldVal newVal : GCValue}
    (isObject : rt.fields p = some (.jsObject sh properties classData))
    (isThere : properties[index]? = some (.normal oldVal))
    (suits : Suited rt.fields (GCValue.refs newVal))
    (gives : ∀ q, external q = left q + ((GCValue.refs newVal).map GCRef.target).count q)
    {fuel : Nat} (enough : objects.length < fuel) :
    ∃ next rest, setValue fuel p index newVal rt = some next ∧ Sound left rest next ∧
      rest.Subperm objects ∧ (Fits rt → Fits next) := by
  let new : GCObject := .jsObject sh (properties.set index (.normal newVal)) classData
  have suitsAll : Suited rt.fields (GCObject.jsObject sh properties classData).marks := by
    obtain ⟨object, isSame, -, suitsOld⟩ := sound.object p (sound.exists_of_fields isObject)
    obtain rfl := Option.some_inj.mp (isObject.symm.trans isSame)
    exact suitsOld
  have suitsOld : Suited rt.fields (GCValue.refs oldVal) := by
    intro ref isRef
    refine suitsAll ref ?_
    simp only [GCObject.marks, List.mem_cons, List.mem_append, List.mem_flatMap]
    exact .inr (.inl ⟨_, List.mem_of_getElem? isThere, isRef⟩)
  have suitsNew : Suited rt.fields new.marks := by
    intro ref isRef
    simp only [new, GCObject.marks, List.mem_cons, List.mem_append, List.mem_flatMap] at isRef
    rcases isRef with rfl | ⟨property, isIn, isRef⟩ | isRef
    · exact suitsAll _ (by simp [GCObject.marks])
    · rcases List.mem_or_eq_of_mem_set isIn with before | rfl
      · exact suitsAll ref (by
          simp only [GCObject.marks, List.mem_cons, List.mem_append, List.mem_flatMap]
          exact .inr (.inl ⟨property, before, isRef⟩))
      · exact suits ref isRef
    · exact suitsAll ref (by simp [GCObject.marks, isRef])
  have balance : ∀ q, left q + ((GCValue.refs oldVal).map GCRef.target).count q +
      (new.marks.map GCRef.target).count q = external q +
        ((GCObject.jsObject sh properties classData).marks.map GCRef.target).count q := by
    intro q
    have changes := count_refs_set isThere (.normal newVal) q
    rw [gives]
    simp only [new, GCObject.marks, List.map_cons, List.map_append, List.count_cons,
      List.count_append]
    simp only [JSProperty.refs] at changes
    omega
  have sameType : new.gcObjType = (GCObject.jsObject sh properties classData).gcObjType := rfl
  have changed := sound.replace isObject sameType suitsNew balance
  obtain ⟨next, rest, runs, soundNow, fewer, fields⟩ :=
    changed.exists_freeValue (suitsOld.replace isObject sameType) (fun q => rfl) enough
  refine ⟨next, rest, ?_, soundNow, fewer, fun fits =>
    changed.fits_of_fewer soundNow (fun q => Nat.le_add_right _ _) fewer.subset fields fits⟩
  rw [setValue, isObject]
  simp only [isThere]
  exact runs

/-! ## Runs -/

/-- What a program does with objects.  `create` takes memory that is not in use. -/
inductive HeapOperation
  | create (p : Address) (object : GCObject)
  | dup (p : Address)
  | free (ref : GCRef)
  | setProperty (p : Address) (index : Nat) (newVal : GCValue)
  | runGC

namespace HeapOperation

def run (fuel : Nat) : HeapOperation → GCRuntime → Option GCRuntime
  | .create p object, rt => rt.addGCObject p object
  | .dup p, rt => jsDupValue p rt
  | .free ref, rt => freeRef (freeZeroRefcount fuel) ref rt
  | .setProperty p index newVal, rt => setValue fuel p index newVal rt
  | .runGC, rt => jsRunGC fuel rt

/-- The references that the program gets. -/
def given : HeapOperation → List Address
  | .create p _ => [p]
  | .dup p => [p]
  | _ => []

/-- The references that the program no longer has. -/
def taken : HeapOperation → List Address
  | .create _ object => object.marks.map GCRef.target
  | .free ref => [ref.target]
  | .setProperty _ _ newVal => (GCValue.refs newVal).map GCRef.target
  | _ => []

/-- The references that the program has afterwards. -/
def after (operation : HeapOperation) (external : Address → Nat) (q : Address) : Nat :=
  external q - operation.taken.count q + operation.given.count q

/-- The program gives references that it has, each for an object of its type, and a
count that is raised stays one of an `int`. -/
def Enabled (operation : HeapOperation) (external : Address → Nat) (rt : GCRuntime) : Prop :=
  (∀ q, operation.taken.count q ≤ external q) ∧
    match operation with
    | .create p object => rt.headers p = none ∧ Suited rt.fields object.marks
    | .dup p => ∃ object header, rt.fields p = some object ∧ rt.headers p = some header ∧
        header.refCount + 1 < 2 ^ 31
    | .free ref => Suited rt.fields [ref]
    | .setProperty p index newVal =>
        Suited rt.fields (GCValue.refs newVal) ∧
          ∃ sh properties classData oldVal,
            rt.fields p = some (.jsObject sh properties classData) ∧
              properties[index]? = some (.normal oldVal)
    | .runGC => True

variable {operation : HeapOperation}

/-- An operation goes through and leaves a heap, with counts that fit where they did. -/
theorem exists_run (sound : Sound external objects rt) (enabled : operation.Enabled external rt)
    {fuel : Nat} (enough : objects.length < fuel) :
    ∃ next rest, operation.run fuel rt = some next ∧ Sound (operation.after external) rest next ∧
      rest.length ≤ objects.length + 1 ∧ (Fits rt → Fits next) := by
  have gives : ∀ q, external q = (external q - operation.taken.count q) +
      operation.taken.count q := by
    intro q
    have owns := enabled.1 q
    omega
  cases operation with
  | create p object =>
      obtain ⟨unused, suits⟩ := enabled.2
      have fresh : p ∉ objects := by
        intro member
        obtain ⟨other, -, header, -⟩ := sound.object p member
        simp [unused] at header
      obtain ⟨next, runs, soundNow, -⟩ := sound.exists_addGCObject fresh suits gives
      refine ⟨next, objects ++ [p], runs, soundNow, by simp, fun fits => ?_⟩
      obtain ⟨links, -, isNext⟩ := Option.bind_eq_some_iff.mp runs
      obtain rfl := Option.some_inj.mp isNext
      exact fits.update rfl (by simp)
  | dup p =>
      obtain ⟨object, header, isObject, isHeader, inRange⟩ := enabled.2
      obtain ⟨next, runs, soundNow, -⟩ :=
        sound.exists_jsDupValue (sound.exists_of_fields isObject)
      refine ⟨next, objects, runs, soundNow, Nat.le_succ _, fun fits => ?_⟩
      obtain ⟨other, isOther, isNext⟩ := Option.bind_eq_some_iff.mp runs
      obtain rfl := Option.some_inj.mp (isHeader.symm.trans isOther)
      obtain rfl := Option.some_inj.mp isNext
      exact fits.update rfl inRange
  | free ref =>
      obtain ⟨object, isObject, suits⟩ := enabled.2 ref List.mem_cons_self
      obtain ⟨next, rest, runs, soundNow, fewer, fields⟩ :=
        sound.exists_freeRef isObject suits gives enough
      exact ⟨next, rest, runs, soundNow, fewer.length_le.trans (Nat.le_succ _),
        sound.fits_of_fewer soundNow (fun q => Nat.sub_le _ _) fewer.subset fields⟩
  | setProperty p index newVal =>
      obtain ⟨suits, sh, properties, classData, oldVal, isObject, isThere⟩ := enabled.2
      obtain ⟨next, rest, runs, soundNow, fewer, fits⟩ :=
        sound.exists_setValue isObject isThere suits gives enough
      exact ⟨next, rest, runs, soundNow, fewer.length_le.trans (Nat.le_succ _), fits⟩
  | runGC =>
      obtain ⟨next, runs, soundNow, fields⟩ := sound.exists_jsRunGC enough
      have within : (heapGraph external objects rt.fields).collect ⊆ objects := fun q isKept =>
        sound.mem_of_reachable ((sound.mem_collect_iff q).mp isKept)
      have fewer := (List.subperm_of_subset soundNow.nodup within).length_le
      exact ⟨next, _, runs, soundNow, fewer.trans (Nat.le_succ _),
        sound.fits_of_fewer soundNow (fun q => le_rfl) within fields⟩

end HeapOperation

/-- A run from a new runtime on, with the references that the program has.  `created`
bounds the number of objects; loops run as often as there are objects. -/
inductive HeapRun : (created : Nat) → (external : Address → Nat) → (rt : GCRuntime) → Prop
  | new : HeapRun 0 (fun _ => 0) jsNewRuntime
  | step {created : Nat} {external : Address → Nat} {rt next : GCRuntime}
      {operation : HeapOperation} (run : HeapRun created external rt)
      (enabled : operation.Enabled external rt)
      (runs : operation.run (created + 1) rt = some next) :
      HeapRun (created + 1) (operation.after external) next

namespace HeapRun

variable {created : Nat}

theorem sound (run : HeapRun created external rt) :
    ∃ objects, Sound external objects rt ∧ objects.length ≤ created ∧ Fits rt := by
  induction run with
  | new => exact ⟨[], sound_jsNewRuntime, le_rfl, nofun⟩
  | step run enabled runs ih =>
      obtain ⟨objects, sound, fewer, fits⟩ := ih
      obtain ⟨next, rest, isRun, soundNow, atMost, fitsNow⟩ :=
        HeapOperation.exists_run sound enabled (Nat.lt_succ_of_le fewer)
      obtain rfl := Option.some_inj.mp (isRun.symm.trans runs)
      exact ⟨rest, soundNow, atMost.trans (Nat.succ_le_succ fewer), fitsNow fits⟩

/-- In every run the next operation goes through: no assertion fails and nothing that
has been freed is used.  What the program can reach is there, with a count that says
how many references there are and is one of an `int`. -/
theorem goes_on (run : HeapRun created external rt) :
    (∀ operation : HeapOperation, operation.Enabled external rt →
      ∃ next, operation.run (created + 1) rt = some next) ∧
    ∀ p, Reachable external rt.fields p → ∃ object header, rt.fields p = some object ∧
      rt.headers p = some header ∧ 0 < header.refCount ∧ (external p : Int) ≤ header.refCount ∧
        header.refCount < 2 ^ 31 ∧ Suited rt.fields object.marks := by
  obtain ⟨objects, sound, fewer, fits⟩ := run.sound
  constructor
  · intro operation enabled
    obtain ⟨next, -, runs, -⟩ :=
      HeapOperation.exists_run sound enabled (Nat.lt_succ_of_le fewer)
    exact ⟨next, runs⟩
  · intro p reachable
    have member := sound.mem_of_reachable reachable
    obtain ⟨object, isObject, header, suits⟩ := sound.object p member
    have positive := sound.positive p member
    refine ⟨object, _, isObject, header, by simpa using positive, ?_, fits p _ header, suits⟩
    simp only [counted]
    omega

end HeapRun

/-! ## What is left -/

/-- After a collection of a heap without weak references, the memory that is in use is
that of objects which are reachable from outside, and these have the fields that they
had. -/
theorem jsRunGC_exact (sound : Sound external objects rt) {fuel : Nat}
    (enough : objects.length < fuel) :
    ∃ next rest, jsRunGC fuel rt = some next ∧ Sound external rest next ∧
      rest = (heapGraph external objects rt.fields).collect ∧
      ∀ p, (next.headers p ≠ none ↔ Reachable external rt.fields p) ∧
        (Reachable external rt.fields p → next.fields p = rt.fields p) := by
  obtain ⟨next, runs, soundNow, fields⟩ := sound.exists_jsRunGC enough
  refine ⟨next, _, runs, soundNow, rfl, fun p => ?_⟩
  rw [← sound.mem_collect_iff, soundNow.headers_iff]
  exact ⟨.rfl, fields p⟩

/-- A program makes an object with one property and has a reference to it. -/
theorem exists_object : ∃ rt, HeapRun 2 (fun q => [2].count q) rt ∧
    Sound (fun q => [2].count q) [1, 2] rt ∧ rt.fields 1 = some (.shape none) ∧
      rt.fields 2 = some (.jsObject 1 [.normal none] .none) := by
  have noProto : Suited jsNewRuntime.fields (GCObject.shape none).marks := by
    simp [Suited, GCObject.marks, GCValue.refs]
  obtain ⟨first, runsFirst, soundFirst, fieldsFirst⟩ :=
    sound_jsNewRuntime.exists_addGCObject (p := 1) (by simp) noProto
      fun q => (by simp [GCObject.marks, GCValue.refs] : 0 = 0 + _)
  have hasShape : Suited first.fields
      (GCObject.jsObject 1 [.normal none] .none).marks := by
    simp [Suited, GCObject.marks, GCValue.refs, JSProperty.refs, ClassData.refs, GCRef.target,
      fieldsFirst, GCRef.Suits, GCObject.gcObjType]
  have givesShape : ∀ q, 0 + [1].count q = 0 +
      ((GCObject.jsObject 1 [.normal none] .none).marks.map GCRef.target).count q := by
    simp [GCObject.marks, GCValue.refs, JSProperty.refs, ClassData.refs, GCRef.target]
  obtain ⟨second, runsSecond, soundSecond, fieldsSecond⟩ :=
    soundFirst.exists_addGCObject (p := 2) (by simp) hasShape givesShape
  let makeShape : HeapOperation := .create 1 (.shape none)
  let makeObject : HeapOperation := .create 2 (.jsObject 1 [.normal none] .none)
  have enabledShape : makeShape.Enabled (fun _ => 0) jsNewRuntime := by
    refine ⟨?_, rfl, noProto⟩
    simp [makeShape, HeapOperation.taken, GCObject.marks, GCValue.refs]
  have ownsShape : makeShape.after (fun _ => 0) = fun q => 0 + [1].count q := by
    funext q
    simp [makeShape, HeapOperation.after, HeapOperation.taken, HeapOperation.given,
      GCObject.marks, GCValue.refs]
  have enabledObject : makeObject.Enabled (makeShape.after fun _ => 0) first := by
    refine ⟨fun q => ?_, (soundFirst.freed 2 (by simp)).1, hasShape⟩
    have gives := givesShape q
    simp only [ownsShape, makeObject, HeapOperation.taken]
    omega
  have ownsObject : makeObject.after (makeShape.after fun _ => 0) = fun q => [2].count q := by
    funext q
    have gives := givesShape q
    rw [HeapOperation.after, ownsShape]
    simp only [makeObject, HeapOperation.taken, HeapOperation.given]
    omega
  refine ⟨second, ?_, by simpa using soundSecond, by simp [fieldsSecond, fieldsFirst],
    by simp [fieldsSecond]⟩
  rw [← ownsObject]
  exact .step (.step .new enabledShape runsFirst) enabledObject runsSecond

/-- The program reaches the object that it has made. -/
theorem goes_on_object : ∃ rt, HeapRun 2 (fun q => [2].count q) rt ∧
    (∃ next, HeapOperation.run 3 .runGC rt = some next) ∧
      ∃ header, rt.headers 2 = some header ∧ 0 < header.refCount := by
  obtain ⟨rt, run, -⟩ := exists_object
  obtain ⟨goesOn, isThere⟩ := HeapRun.goes_on run
  have enabled : HeapOperation.runGC.Enabled (fun q => [2].count q) rt :=
    ⟨by simp [HeapOperation.taken], trivial⟩
  obtain ⟨object, header, -, isHeader, positive, -⟩ := isThere 2 ⟨2, by simp, .refl⟩
  exact ⟨rt, run, goesOn _ enabled, header, isHeader, positive⟩

/-- An object that refers to itself is freed with its shape. -/
theorem jsRunGC_exact_cycle : ∃ rt before next, HeapRun 2 (fun q => [2].count q) rt ∧
    setValue 3 2 0 (some 2) rt = some before ∧ jsRunGC 3 before = some next ∧
      ∀ p, next.headers p = none := by
  obtain ⟨rt, run, sound, -, isObject⟩ := exists_object
  have suits : Suited rt.fields (GCValue.refs (some 2)) := by
    simp [Suited, GCValue.refs, GCRef.target, isObject, GCRef.Suits, GCObject.gcObjType]
  have gives : ∀ q, [2].count q = 0 + ((GCValue.refs (some 2)).map GCRef.target).count q := by
    simp [GCValue.refs, GCRef.target]
  have isThere : [JSProperty.normal none][0]? = some (.normal none) := rfl
  obtain ⟨before, rest, sets, soundBefore, fewer, -⟩ :=
    sound.exists_setValue isObject isThere suits gives (by simp : [1, 2].length < 3)
  obtain ⟨next, -, runs, -, -, exact⟩ :=
    jsRunGC_exact soundBefore (fewer.length_le.trans_lt (by simp : [1, 2].length < 3))
  refine ⟨rt, before, next, run, sets, runs, fun p => ?_⟩
  by_contra inUse
  obtain ⟨root, isRoot, -⟩ := (exact p).1.mp inUse
  exact absurd isRoot (Nat.lt_irrefl 0)

/-- Freeing other objects makes no difference to what is reachable. -/
theorem Sound.reachable_congr {next : GCRuntime} {rest : List Address}
    (sound : Sound external rest next) (fields : ∀ q ∈ rest, next.fields q = rt.fields q)
    (p : Address) : Reachable external next.fields p ↔ Reachable external rt.fields p := by
  have same : ∀ q ∈ rest, children next.fields q = children rt.fields q := by
    intro q member
    rw [children, children, fields q member]
  constructor
  · rintro ⟨root, isRoot, leads⟩
    refine ⟨root, isRoot, ?_⟩
    induction leads with
    | refl => exact .refl
    | @tail parent child before isChild ih =>
        have member := sound.mem_of_reachable ⟨root, isRoot, before⟩
        refine ih.tail ?_
        unfold Leads at isChild ⊢
        rwa [← same parent member]
  · rintro ⟨root, isRoot, leads⟩
    refine ⟨root, isRoot, ?_⟩
    induction leads with
    | refl => exact .refl
    | @tail parent child _ isChild ih =>
        have member := sound.mem_of_reachable ⟨root, isRoot, ih⟩
        refine ih.tail ?_
        unfold Leads at isChild ⊢
        rwa [same parent member]

/-- Where no cycle refers to it, what cannot be reached from outside is not kept. -/
theorem Sound.reachable_of_mem (sound : Sound external objects rt)
    (acyclic : WellFounded (Leads (children rt.fields))) (member : p ∈ objects) :
    Reachable external rt.fields p := by
  induction p using acyclic.induction with
  | _ p ih =>
      by_cases isRoot : 0 < external p
      · exact ⟨p, isRoot, .refl⟩
      · have refers : 0 < references (children rt.fields) objects p := by
          have positive := sound.positive p member
          unfold counted at positive
          omega
        obtain ⟨parent, isParent, isChild⟩ := references_pos.mp refers
        obtain ⟨root, isOutside, leads⟩ := ih parent isChild isParent
        exact ⟨root, isOutside, leads.tail isChild⟩

/-- Giving up a reference of any kind, in a heap without weak references, keeps what is
still reachable, and where there are no cycles nothing else. -/
theorem freeRef_exact (sound : Sound external objects rt) {ref : GCRef}
    (suits : Suited rt.fields [ref]) (gives : ∀ q, external q = left q + [ref.target].count q)
    {fuel : Nat} (enough : objects.length < fuel) :
    ∃ next rest, freeRef (freeZeroRefcount fuel) ref rt = some next ∧ Sound left rest next ∧
      (∀ q, Reachable left rt.fields q → q ∈ rest) ∧
      (∀ q ∈ rest, next.fields q = rt.fields q) ∧
      (WellFounded (Leads (children rt.fields)) →
        ∀ q, q ∈ rest ↔ Reachable left rt.fields q) := by
  obtain ⟨object, isObject, isSuited⟩ := suits ref List.mem_cons_self
  obtain ⟨next, rest, runs, soundNow, -, fields⟩ :=
    sound.exists_freeRef isObject isSuited gives enough
  have reaches : ∀ q, Reachable left rt.fields q → q ∈ rest := fun q reachable =>
    soundNow.mem_of_reachable ((soundNow.reachable_congr fields q).mpr reachable)
  refine ⟨next, rest, runs, soundNow, reaches, fields, fun acyclic q => ⟨fun member => ?_,
    reaches q⟩⟩
  refine (soundNow.reachable_congr fields q).mp (soundNow.reachable_of_mem ?_ member)
  refine Subrelation.wf (fun {parent child} isChild => ?_) acyclic
  unfold Leads at isChild ⊢
  by_cases isLive : parent ∈ rest
  · rwa [children, fields parent isLive] at isChild
  · simp [children, (soundNow.freed parent isLive).2] at isChild

/-- An object that nothing else refers to is freed with its shape. -/
theorem freeRef_exact_object : ∃ rt next, HeapRun 2 (fun q => [2].count q) rt ∧
    freeRef (freeZeroRefcount 3) (.value 2) rt = some next ∧ ∀ p, next.headers p = none := by
  obtain ⟨rt, run, sound, isShape, isObject⟩ := exists_object
  have suits : Suited rt.fields [.value 2] := by
    simp [Suited, GCRef.target, isObject, GCRef.Suits, GCObject.gcObjType]
  have gives : ∀ q, [2].count q = 0 + [(GCRef.value 2).target].count q := by simp [GCRef.target]
  obtain ⟨next, rest, runs, sound', -, -, exact⟩ :=
    freeRef_exact sound suits gives (by simp : [1, 2].length < 3)
  have acyclic : WellFounded (Leads (children rt.fields)) := by
    refine Subrelation.wf (r := fun p q => 2 - p < 2 - q) (fun {p q} isChild => ?_)
      (measure fun p => 2 - p).wf
    unfold Leads children at isChild
    by_cases isLast : p = 2
    · subst isLast
      have isOne : q = 1 := by
        simpa [isObject, GCObject.marks, JSProperty.refs, GCValue.refs, ClassData.refs,
          GCRef.target] using isChild
      subst isOne
      exact (by decide : 2 - 2 < 2 - 1)
    · by_cases isFirst : p = 1
      · subst isFirst
        simp [isShape, GCObject.marks, GCValue.refs] at isChild
      · simp [(sound.freed p (by simp [isFirst, isLast])).2] at isChild
  refine ⟨rt, next, run, runs, fun p => (sound'.freed p fun member => ?_).1⟩
  obtain ⟨root, isRoot, -⟩ := (exact acyclic p).mp member
  exact absurd isRoot (Nat.lt_irrefl 0)

end Jib.QuickJS.GCRuntime
