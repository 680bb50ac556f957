import Jib.QuickJSCounts
import Jib.QuickJSRuntimes

/-!
# The end of a QuickJS runtime

`JS_FreeRuntime` gives up the references of the runtime itself and collects cycles.
What is assumed of it where the references of a `Jib` are accounted for holds of
the collector, in heaps without weak references.
-/

namespace Jib.QuickJS.GCRuntime

open LinkedLists CycleCollection

/-- `JS_FreeRuntime` as far as the collector is concerned: the pending exception and
the arguments of jobs that wait are given up. -/
def jsFreeRuntime (fuel : Nat) (currentException : GCValue) (jobs : List (List GCValue))
    (rt : GCRuntime) : Option GCRuntime := do
  let rt ← freeValue fuel currentException rt
  let rt ← jobs.foldlM (fun rt argv => argv.foldlM (fun rt value => freeValue fuel value rt) rt) rt
  jsRunGC fuel rt

/-- The references of the runtime itself. -/
def runtimeRoots (currentException : GCValue) (jobs : List (List GCValue)) : List GCRef :=
  (currentException :: jobs.flatten).flatMap GCValue.refs

variable {external left : Address → Nat} {objects : List Address} {rt : GCRuntime}
  {p q : Address}

/-! ## The end of a runtime -/

/-- Values are given up one after the other. -/
theorem Sound.exists_freeValues (sound : Sound external objects rt) {values : List GCValue}
    (suits : Suited rt.fields (values.flatMap GCValue.refs))
    (gives : ∀ q, external q =
      left q + ((values.flatMap GCValue.refs).map GCRef.target).count q)
    {fuel : Nat} (enough : objects.length < fuel) :
    ∃ next rest, values.foldlM (fun rt value => freeValue fuel value rt) rt = some next ∧
      Sound left rest next ∧ rest.Subperm objects ∧
        ∀ q ∈ rest, next.fields q = rt.fields q := by
  induction values generalizing external objects rt with
  | nil =>
      obtain rfl : external = left := by
        funext q
        simpa using gives q
      exact ⟨rt, objects, rfl, sound, .refl _, fun _ _ => rfl⟩
  | cons value others ih =>
      simp only [List.flatMap_cons, List.map_append, List.count_append] at suits gives
      have suitsFirst : Suited rt.fields (GCValue.refs value) := fun ref isRef =>
        suits ref (List.mem_append_left _ isRef)
      have givesFirst : ∀ q, external q = (left q +
          ((others.flatMap GCValue.refs).map GCRef.target).count q) +
            ((GCValue.refs value).map GCRef.target).count q := by
        intro q
        rw [gives]
        omega
      obtain ⟨middle, between, runs, soundMiddle, fewer, fields⟩ :=
        sound.exists_freeValue suitsFirst givesFirst enough
      have suitsRest : Suited middle.fields (others.flatMap GCValue.refs) := by
        intro ref isRef
        obtain ⟨target, isTarget, isSuited⟩ := suits ref (List.mem_append_right _ isRef)
        have owned : 0 < ((others.flatMap GCValue.refs).map GCRef.target).count ref.target :=
          List.count_pos_iff.mpr (List.mem_map_of_mem isRef)
        have isThere := soundMiddle.outside ref.target (Nat.add_pos_right _ owned)
        exact ⟨target, by rw [fields _ isThere, isTarget], isSuited⟩
      obtain ⟨next, rest, runsRest, soundNow, fewerRest, fieldsRest⟩ :=
        ih soundMiddle suitsRest (fun q => rfl) (fewer.length_le.trans_lt enough)
      refine ⟨next, rest, ?_, soundNow, fewerRest.trans fewer, fun q member => ?_⟩
      · rw [List.foldlM_cons, runs]
        exact runsRest
      · rw [fieldsRest q member, fields q (fewerRest.subset member)]

theorem foldlM_jobs (free : GCRuntime → GCValue → Option GCRuntime) (jobs : List (List GCValue))
    (rt : GCRuntime) :
    jobs.foldlM (fun rt argv => argv.foldlM free rt) rt = jobs.flatten.foldlM free rt := by
  induction jobs generalizing rt with
  | nil => rfl
  | cons argv rest ih =>
      rw [List.foldlM_cons, List.flatten_cons, List.foldlM_append]
      exact congrArg _ (funext ih)

/-- What `JS_FreeRuntime` leaves is what others can still reach, apart from the pending
exception and jobs. -/
theorem Sound.exists_jsFreeRuntime (sound : Sound external objects rt)
    {currentException : GCValue} {jobs : List (List GCValue)}
    (suits : Suited rt.fields (runtimeRoots currentException jobs))
    (gives : ∀ q, external q =
      left q + ((runtimeRoots currentException jobs).map GCRef.target).count q)
    {fuel : Nat} (enough : objects.length < fuel) :
    ∃ middle between next, jsFreeRuntime fuel currentException jobs rt = some next ∧
      Sound left between middle ∧ Sound left (heapGraph left between middle.fields).collect next ∧
      ∀ p, p ∈ (heapGraph left between middle.fields).collect ↔ Reachable left rt.fields p := by
  obtain ⟨middle, between, frees, soundMiddle, fewer, fields⟩ :=
    sound.exists_freeValues suits gives enough
  obtain ⟨next, runs, soundNow, -⟩ :=
    soundMiddle.exists_jsRunGC (fewer.length_le.trans_lt enough)
  refine ⟨middle, between, next, ?_, soundMiddle, soundNow, fun p => ?_⟩
  · rw [List.foldlM_cons] at frees
    obtain ⟨first, freesFirst, freesRest⟩ := Option.bind_eq_some_iff.mp frees
    simp only [jsFreeRuntime, freesFirst, foldlM_jobs, freesRest, Option.bind_eq_bind,
      Option.bind_some]
    exact runs
  · rw [soundMiddle.mem_collect_iff, soundMiddle.reachable_congr fields]

/-! ## The heap of a `Jib` -/

/-- What an object is to the bridge, which has one context. -/
def resourceOf (ctx p : Address) : Resource :=
  if p = ctx then .context else .value p

def addressOf (ctx : Address) : Resource → Option Address
  | .context => some ctx
  | .value p => if p = ctx then none else some p
  | _ => none

/-- The heap of a runtime as references are accounted for; `roots` are those of the
runtime itself. -/
def heapOf (ctx : Address) (roots : Address → Nat) (objects : List Address) (rt : GCRuntime) :
    Heap where
  refCount resource :=
    match (addressOf ctx resource).bind rt.headers with
    | some header => header.refCount
    | none => 0
  roots resource :=
    match addressOf ctx resource with
    | some p => roots p
    | none => 0
  objects := objects.map (resourceOf ctx)
  children resource :=
    match addressOf ctx resource with
    | some p => (children rt.fields p).map (resourceOf ctx)
    | none => []

theorem addressOf_resourceOf (ctx p : Address) : addressOf ctx (resourceOf ctx p) = some p := by
  unfold resourceOf
  split
  · rename_i isContext
    rw [isContext]
    rfl
  · rename_i isValue
    simp [addressOf, isValue]

theorem resourceOf_injective (ctx : Address) : Function.Injective (resourceOf ctx) := by
  intro p q same
  have isSame := congrArg (addressOf ctx) same
  rwa [addressOf_resourceOf, addressOf_resourceOf, Option.some_inj] at isSame

theorem resourceOf_addressOf {ctx : Address} {resource : Resource}
    (isAddress : addressOf ctx resource = some p) : resourceOf ctx p = resource := by
  cases resource with
  | context =>
      obtain rfl : ctx = p := by simpa [addressOf] using isAddress
      simp [resourceOf]
  | value q =>
      simp only [addressOf] at isAddress
      split at isAddress
      · simp at isAddress
      · rename_i isValue
        obtain rfl := Option.some_inj.mp isAddress
        simp [resourceOf, isValue]
  | _ => simp [addressOf] at isAddress

theorem children_heapOf (ctx : Address) (roots : Address → Nat) (objects : List Address)
    (rt : GCRuntime) (p : Address) :
    (heapOf ctx roots objects rt).children (resourceOf ctx p) =
      (children rt.fields p).map (resourceOf ctx) := by
  simp [heapOf, addressOf_resourceOf]

theorem internal_heapOf (ctx : Address) (roots : Address → Nat) (objects : List Address)
    (rt : GCRuntime) (resource : Resource) :
    (heapOf ctx roots objects rt).graph.internal resource =
      match addressOf ctx resource with
      | some p => references (children rt.fields) objects p
      | none => 0 := by
  cases isAddress : addressOf ctx resource with
  | some p =>
      rw [← resourceOf_addressOf isAddress]
      exact references_map (resourceOf_injective ctx) (children_heapOf ctx roots objects rt) _ _
  | none =>
      have unreferred : ¬0 < (heapOf ctx roots objects rt).graph.internal resource := by
        intro refers
        obtain ⟨parent, isParent, isChild⟩ := references_pos.mp refers
        obtain ⟨p, -, rfl⟩ := List.mem_map.mp isParent
        have isMapped : resource ∈ (children rt.fields p).map (resourceOf ctx) :=
          children_heapOf ctx roots objects rt p ▸ isChild
        obtain ⟨q, -, rfl⟩ := List.mem_map.mp isMapped
        simp [addressOf_resourceOf] at isAddress
      simpa using unreferred

/-- The references that a heap leaves for others are those from outside. -/
theorem external_heapOf {roots : Address → Nat} {ctx : Address}
    (sound : Sound (fun q => left q + roots q) objects rt) (resource : Resource) :
    (heapOf ctx roots objects rt).external resource =
      match addressOf ctx resource with
      | some p => (left p : Int)
      | none => 0 := by
  rw [Heap.external, Heap.edges, internal_heapOf]
  cases isAddress : addressOf ctx resource with
  | none => simp [heapOf, isAddress]
  | some p =>
      simp only [heapOf, isAddress, Option.bind_some]
      by_cases member : p ∈ objects
      · obtain ⟨object, -, header, -⟩ := sound.object p member
        simp only [header, counted]
        omega
      · have nothing := mt sound.mem_of_counted member
        simp only [(sound.freed p member).1]
        simp only [counted] at nothing
        omega

/-- `JS_FreeRuntime` gives up the references of the runtime and collects: what is said
of it where references are accounted for holds of the collector. -/
theorem Sound.collected_jsFreeRuntime (ctx : Address) {currentException : GCValue}
    {jobs : List (List GCValue)}
    (sound : Sound
      (fun q => left q + ((runtimeRoots currentException jobs).map GCRef.target).count q)
      objects rt)
    (suits : Suited rt.fields (runtimeRoots currentException jobs))
    {fuel : Nat} (enough : objects.length < fuel) :
    ∃ next rest, jsFreeRuntime fuel currentException jobs rt = some next ∧
      Sound left rest next ∧ (∀ p, p ∈ rest ↔ Reachable left rt.fields p) ∧
      (heapOf ctx (fun q => ((runtimeRoots currentException jobs).map GCRef.target).count q)
        objects rt).Collected (heapOf ctx (fun _ => 0) rest next) := by
  obtain ⟨middle, between, next, runs, soundMiddle, soundNow, isKept⟩ :=
    sound.exists_jsFreeRuntime suits (fun _ => rfl) enough
  refine ⟨next, _, runs, soundNow, isKept, heapOf ctx (fun _ => 0) between middle, ?_, ?_, ?_⟩
  · intro resource
    have isSound : Sound (fun q => left q + (fun _ => 0) q) between middle := soundMiddle
    rw [external_heapOf isSound, external_heapOf sound]
  · funext resource
    simp only [heapOf]
    split <;> rfl
  · refine (Graph.collect_map (resourceOf_injective ctx) rfl
      (children_heapOf ctx (fun _ => 0) between middle) fun p member => ?_).symm
    obtain ⟨object, -, header, -⟩ := soundMiddle.object p member
    simp [Heap.graph, heapOf, addressOf_resourceOf, header, heapGraph]

/-- An object that was thrown is freed with the runtime. -/
theorem collected_jsFreeRuntime_exception : ∃ rt next rest,
    HeapRun 2 (fun q => [2].count q) rt ∧ jsFreeRuntime 3 (some 2) [] rt = some next ∧
      rest = [] ∧ (heapOf 0 (fun q => [2].count q) [1, 2] rt).Collected
        (heapOf 0 (fun _ => 0) rest next) := by
  obtain ⟨rt, run, sound, -, isObject⟩ := exists_object
  have suits : Suited rt.fields (runtimeRoots (some 2) []) := by
    simp [runtimeRoots, Suited, GCValue.refs, GCRef.target, isObject, GCRef.Suits,
      GCObject.gcObjType]
  have isRoots : (fun q => [2].count q) =
      fun q => 0 + ((runtimeRoots (some 2) []).map GCRef.target).count q := by
    funext q
    simp [runtimeRoots, GCValue.refs, GCRef.target]
  have soundRoots : Sound (fun q => (fun _ => 0) q +
      ((runtimeRoots (some 2) []).map GCRef.target).count q) [1, 2] rt := isRoots ▸ sound
  obtain ⟨next, rest, runs, -, isKept, collected⟩ :=
    Sound.collected_jsFreeRuntime 0 soundRoots suits (by simp : [1, 2].length < 3)
  have nothing : rest = [] := by
    refine List.eq_nil_iff_forall_not_mem.mpr fun p member => ?_
    obtain ⟨root, isRoot, -⟩ := (isKept p).mp member
    exact absurd isRoot (Nat.lt_irrefl 0)
  refine ⟨rt, next, rest, run, runs, nothing, ?_⟩
  simpa [runtimeRoots, GCValue.refs, GCRef.target] using collected

end Jib.QuickJS.GCRuntime
