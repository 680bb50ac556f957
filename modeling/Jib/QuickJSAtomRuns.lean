import Jib.QuickJSAtomMemory

/-!
# Runs with atoms

A program that makes and gives up atoms and strings, and gives up only what it
has, always goes on, as long as the array and the counts are not as large as an
`int` can be.  While it has an atom the atom keeps its name, and two atoms with one
name are the same.
-/

namespace Jib.QuickJS

namespace AtomTable

variable {rt mid after : AtomTable} {v w : Nat} {p : Address} {owns left : AtomRef → Nat}
  {type : AtomType} {units : List UInt16} {malloc : Mallocs} {bound : Int} {size : Nat}

/-! ## Operations -/

/-- What a program can do with atoms and strings. -/
inductive AtomOperation
  | allocString (string : JSString)
  | dupString (p : Address)
  | freeString (p : Address)
  | dupAtom (v : JSAtom)
  | freeAtom (v : JSAtom)
  | newAtomStr (p : Address)
  | newAtomLen (name : Bytes)
  | newAtomUInt32 (n : Nat)
  | newSymbol (str : Option Address) (type : AtomType)
  | atomToString (v : JSAtom)

/-- The reference to a new atom. -/
def atomRefs (v : JSAtom) : List AtomRef :=
  if v = jsAtomNull then [] else [.atom v]

namespace AtomOperation

/-- References that are given up. -/
def takes : AtomOperation → List AtomRef
  | .freeString p => [.value p]
  | .freeAtom v => [.atom v]
  | .newAtomStr p => [.value p]
  | .newSymbol str _ => valueRefs str
  | _ => []

/-- References that are used and kept. -/
def needs : AtomOperation → List AtomRef
  | .dupString p => [.value p]
  | .dupAtom v => [.atom v]
  | .atomToString v => [.atom v]
  | _ => []

/-- What the callers of `__JS_NewAtom` and `JS_NewAtomUInt32` see to. -/
def Right : AtomOperation → Prop
  | .newAtomUInt32 n => n < 2 ^ 32
  | .newSymbol str type => type ≠ .string ∧ (type = .globalSymbol → str ≠ none)
  | _ => True

/-- The references that are new, and the table after the operation. -/
def run (malloc : Mallocs) (rt : AtomTable) : AtomOperation → Option (List AtomRef × AtomTable)
  | .allocString string =>
      match malloc.string with
      | none => some ([], rt)
      | some p => some ([.value p], rt.jsAllocString p string)
  | .dupString p => (rt.jsDupString p).map fun rt => ([.value p], rt)
  | .freeString p => (rt.jsFreeString p).map fun rt => ([], rt)
  | .dupAtom v => (rt.jsDupAtom v).map fun (v, rt) => ([.atom v], rt)
  | .freeAtom v => (rt.jsFreeAtom v).map fun rt => ([], rt)
  | .newAtomStr p => (rt.jsNewAtomStr p malloc).map fun (v, rt) => (atomRefs v, rt)
  | .newAtomLen name => (rt.jsNewAtomLen name malloc).map fun (v, rt) => (atomRefs v, rt)
  | .newAtomUInt32 n => (rt.jsNewAtomUInt32 n malloc).map fun (v, rt) => (atomRefs v, rt)
  | .newSymbol str type => (rt.newAtom str type malloc).map fun (v, rt) => (atomRefs v, rt)
  | .atomToString v => (rt.jsAtomToString v malloc).map fun (str, rt) => (valueRefs str, rt)

/-- A program has the references that it gives up or uses, the memory that it is given
is free, and the size of a larger array and counts that are raised are no overflow. -/
structure Enabled (operation : AtomOperation) (owns : AtomRef → Nat) (malloc : Mallocs)
    (rt : AtomTable) : Prop where
  takes : ∀ ref, operation.takes.count ref ≤ owns ref
  needs : ∀ ref ∈ operation.needs, 0 < owns ref
  right : operation.Right
  available : Available malloc rt
  notHuge : rt.atomArray.length * 3 < 2 ^ 31
  countsFit : ∀ p str, rt.strings p = some str → str.refCount + 1 < 2 ^ 31

/-- The references that are left. -/
def rest (operation : AtomOperation) (owns : AtomRef → Nat) (ref : AtomRef) : Nat :=
  owns ref - operation.takes.count ref

end AtomOperation

/-- What an operation does. -/
structure Done (left : AtomRef → Nat) (rt : AtomTable) (gained : List AtomRef)
    (after : AtomTable) : Prop where
  interned : Interned (fun ref => left ref + gained.count ref) after
  keeps : Keeps left rt after

theorem Named.done (named : Named left rt v type units after) :
    Done left rt (atomRefs v) after := by
  rw [atomRefs, if_neg named.notNull]
  exact ⟨named.interned, named.keeps⟩

theorem done_null (interned : Interned left after) (keeps : Keeps left rt after) :
    Done left rt (atomRefs jsAtomNull) after :=
  ⟨interned, keeps⟩

theorem Names.done (names : Names left malloc rt v type units after) :
    Done left rt (atomRefs v) after := by
  rcases names with ⟨rfl, interned, keeps, -⟩ | named
  · exact done_null interned keeps
  · exact named.done

theorem Interned.done_lowered (interned : Interned owns rt) (lowered : Lowered left rt after)
    (fewer : ∀ ref, left ref ≤ owns ref) : Done left rt [] after :=
  ⟨interned.lowered lowered fewer, lowered.keeps⟩

theorem Interned.done_raised {ref : AtomRef} (interned : Interned owns rt)
    (raised : Raised owns (fun other => owns other + [ref].count other) rt after)
    (old : ∀ v, ref = .atom v → 0 < owns (.atom v)) : Done owns rt [ref] after := by
  refine ⟨interned.raised raised fun v has => interned.range ?_, raised.keeps⟩
  by_cases same : ref = .atom v
  · exact old v same
  · simpa [same] using has

/-- Every operation that is enabled goes through. -/
theorem Interned.exists_run {operation : AtomOperation} (interned : Interned owns rt)
    (enabled : operation.Enabled owns malloc rt) :
    ∃ gained after, operation.run malloc rt = some (gained, after) ∧
      Done (operation.rest owns) rt gained after := by
  have takes : ∀ ref, owns ref = operation.rest owns ref + operation.takes.count ref := by
    intro ref
    have has := enabled.takes ref
    rw [AtomOperation.rest]
    omega
  have fewer : ∀ ref, operation.rest owns ref ≤ owns ref := fun ref => Nat.sub_le _ _
  cases operation with
  | allocString string =>
      cases isString : malloc.string with
      | none => exact ⟨[], rt, by simp [AtomOperation.run, isString], interned, .refl owns rt⟩
      | some p =>
          have made := interned.allocString enabled.available isString string
          exact ⟨[.value p], _, by simp [AtomOperation.run, isString], made.interned, made.keeps⟩
  | dupString p =>
      obtain ⟨held, isContent⟩ := interned.inUse (enabled.needs _ (List.mem_singleton_self _))
      obtain ⟨after, dups, raised⟩ := interned.toSound.exists_jsDupString isContent fun _ => rfl
      exact ⟨_, after, by simp [AtomOperation.run, dups], interned.done_raised raised (by simp)⟩
  | freeString p =>
      obtain ⟨after, frees, lowered⟩ := interned.toSound.exists_jsFreeString takes
      exact ⟨_, after, by simp [AtomOperation.run, frees], interned.done_lowered lowered fewer⟩
  | dupAtom v =>
      have has := enabled.needs _ (List.mem_singleton_self _)
      obtain ⟨after, dups, raised⟩ := interned.toSound.exists_jsDupAtom has fun _ => rfl
      refine ⟨_, after, by simp [AtomOperation.run, dups], interned.done_raised raised ?_⟩
      rintro w ⟨⟩
      exact has
  | freeAtom v =>
      obtain ⟨after, frees, lowered⟩ := interned.toSound.exists_jsFreeAtom takes
      exact ⟨_, after, by simp [AtomOperation.run, frees], interned.done_lowered lowered fewer⟩
  | newAtomStr p =>
      obtain ⟨v, after, runs, names⟩ :=
        interned.exists_jsNewAtomStr takes enabled.notHuge enabled.available.toFresh
      exact ⟨_, after, by simp [AtomOperation.run, runs], names.done⟩
  | newAtomLen name =>
      obtain ⟨v, after, runs, result⟩ :=
        interned.exists_jsNewAtomLen enabled.notHuge enabled.available name
      refine ⟨atomRefs v, after, by simp [AtomOperation.run, runs], ?_⟩
      rcases result with ⟨rfl, internedNow, keeps, -⟩ | ⟨_, -, named⟩
      · exact done_null internedNow keeps
      · exact named.done
  | newAtomUInt32 n =>
      obtain ⟨v, after, runs, result⟩ :=
        interned.exists_jsNewAtomUInt32 enabled.right enabled.notHuge enabled.available
      refine ⟨atomRefs v, after, by simp [AtomOperation.run, runs], ?_⟩
      rcases result with ⟨rfl, internedNow, keeps, -⟩ | named
      · exact done_null internedNow keeps
      · exact named.done
  | newSymbol str type =>
      obtain ⟨notString, hasString⟩ := enabled.right
      obtain ⟨v, after, runs, names⟩ := interned.exists_newAtom type str takes enabled.notHuge
        enabled.available.toFresh
        (fun isString => hasString (isString.resolve_left notString)) (absurd · notString)
      exact ⟨_, after, by simp [AtomOperation.run, runs], names.done⟩
  | atomToString v =>
      obtain ⟨type, units, isName⟩ := interned.exists_atomName
        (enabled.needs _ (List.mem_singleton_self _))
      rcases interned.exists_jsAtomToString isName enabled.available with
        ⟨-, fails, -⟩ | ⟨p, after, runs, internedNow, keeps, -⟩
      · exact ⟨[], rt, by simp [AtomOperation.run, fails, valueRefs], interned, .refl owns rt⟩
      · exact ⟨[.value p], after, by simp [AtomOperation.run, runs, valueRefs], internedNow, keeps⟩

/-- Every operation uses only memory that it is given, and raises no count twice. -/
theorem Within.run {region : Address → Prop} {operation : AtomOperation} {gained : List AtomRef}
    (within : Within region bound size rt) (positive : 1 ≤ bound)
    (isGiven : ∀ q ∈ given malloc, region q)
    (runs : operation.run malloc rt = some (gained, after)) :
    Within region (bound + 1) (grownSize size) after := by
  cases operation with
  | allocString string =>
      cases isString : malloc.string with
      | none =>
          simp only [AtomOperation.run, isString] at runs
          obtain ⟨-, rfl⟩ := Prod.mk.inj (Option.some_inj.mp runs)
          exact within.raised.grown
      | some p =>
          simp only [AtomOperation.run, isString] at runs
          obtain ⟨-, rfl⟩ := Prod.mk.inj (Option.some_inj.mp runs)
          exact (within.write (isGiven p (by simp [given, isString])) positive).raised.grown
  | dupString p =>
      rw [AtomOperation.run, Option.map_eq_some_iff] at runs
      obtain ⟨last, dups, isAfter⟩ := runs
      obtain ⟨-, rfl⟩ := Prod.mk.inj isAfter
      exact (within.jsDupString dups).grown
  | freeString p =>
      rw [AtomOperation.run, Option.map_eq_some_iff] at runs
      obtain ⟨last, frees, isAfter⟩ := runs
      obtain ⟨-, rfl⟩ := Prod.mk.inj isAfter
      exact (within.jsFreeString frees).raised.grown
  | dupAtom v =>
      rw [AtomOperation.run, Option.map_eq_some_iff] at runs
      obtain ⟨⟨w, last⟩, dups, isAfter⟩ := runs
      obtain ⟨-, rfl⟩ := Prod.mk.inj isAfter
      exact (within.jsDupAtom dups).grown
  | freeAtom v =>
      rw [AtomOperation.run, Option.map_eq_some_iff] at runs
      obtain ⟨last, frees, isAfter⟩ := runs
      obtain ⟨-, rfl⟩ := Prod.mk.inj isAfter
      exact (within.jsFreeAtom frees).raised.grown
  | newAtomStr p =>
      rw [AtomOperation.run, Option.map_eq_some_iff] at runs
      obtain ⟨⟨v, last⟩, makes, isAfter⟩ := runs
      obtain ⟨-, rfl⟩ := Prod.mk.inj isAfter
      exact within.jsNewAtomStr positive isGiven makes
  | newAtomLen name =>
      rw [AtomOperation.run, Option.map_eq_some_iff] at runs
      obtain ⟨⟨v, last⟩, makes, isAfter⟩ := runs
      obtain ⟨-, rfl⟩ := Prod.mk.inj isAfter
      exact within.jsNewAtomLen positive isGiven makes
  | newAtomUInt32 n =>
      rw [AtomOperation.run, Option.map_eq_some_iff] at runs
      obtain ⟨⟨v, last⟩, makes, isAfter⟩ := runs
      obtain ⟨-, rfl⟩ := Prod.mk.inj isAfter
      exact within.jsNewAtomUInt32 positive isGiven makes
  | newSymbol str type =>
      rw [AtomOperation.run, Option.map_eq_some_iff] at runs
      obtain ⟨⟨v, last⟩, makes, isAfter⟩ := runs
      obtain ⟨-, rfl⟩ := Prod.mk.inj isAfter
      exact within.newAtom positive isGiven makes
  | atomToString v =>
      rw [AtomOperation.run, Option.map_eq_some_iff] at runs
      obtain ⟨⟨made, last⟩, makes, isAfter⟩ := runs
      obtain ⟨-, rfl⟩ := Prod.mk.inj isAfter
      exact (within.jsAtomToString positive isGiven makes).grown

/-! ## Runs -/

/-- A program from the start of an engine, with the references that it has. -/
inductive AtomRun : (owns : AtomRef → Nat) → (rt : AtomTable) → Prop
  | init {mallocs : Nat → Mallocs} {rt : AtomTable} (apart : Apart mallocs)
      (runs : jsInitAtoms mallocs (fun _ => none) = some (some rt)) : AtomRun (fun _ => 0) rt
  | step {owns : AtomRef → Nat} {rt after : AtomTable} {operation : AtomOperation}
      {malloc : Mallocs} {gained : List AtomRef} (run : AtomRun owns rt)
      (enabled : operation.Enabled owns malloc rt)
      (runs : operation.run malloc rt = some (gained, after)) :
      AtomRun (fun ref => operation.rest owns ref + gained.count ref) after

namespace AtomRun

theorem interned (run : AtomRun owns rt) :
    Interned owns rt ∧ ∀ i, 1 ≤ i → i < jsAtomEnd → rt.text i = initText i := by
  induction run with
  | init apart runs =>
      obtain ⟨result, isResult, isStarting, -⟩ := starting_jsInitAtoms apart
      have starting := isStarting _ (Option.some_inj.mp (isResult.symm.trans runs))
      exact ⟨starting.interned, starting.texts⟩
  | step run enabled runs ih =>
      obtain ⟨interned, texts⟩ := ih
      obtain ⟨gained, after, isRun, done⟩ := interned.exists_run enabled
      obtain ⟨rfl, rfl⟩ := Prod.mk.inj (Option.some_inj.mp (isRun.symm.trans runs))
      refine ⟨done.interned, fun i positive few => ?_⟩
      obtain ⟨_, -, isText⟩ := exists_initText positive few
      rw [isText]
      refine done.keeps.text ?_ ((texts i positive few).trans isText)
      rw [counted_const few]
      exact Nat.one_pos

end AtomRun

/-- In every run no count passes that of an `int`. -/
theorem AtomRun.within (run : AtomRun owns rt) :
    Within (fun _ => True) (2 ^ 31 - 1) rt.atomArray.length rt := by
  cases run with
  | init apart runs =>
      obtain ⟨result, isResult, isStarting, -⟩ := starting_jsInitAtoms apart
      have starting := isStarting _ (Option.some_inj.mp (isResult.symm.trans runs))
      have within : Within (fun _ => True) 1 400 rt := starting.within fun _ _ _ _ => trivial
      exact ⟨fun isStr => ⟨trivial, (within.strings isStr).2.trans (by decide)⟩, le_rfl⟩
  | @step owns before _ operation malloc gained run enabled runs =>
      have within : Within (fun _ => True) (2 ^ 31 - 2) before.atomArray.length before := by
        refine ⟨fun {p str} isStr => ⟨trivial, ?_⟩, le_rfl⟩
        have fits := enabled.countsFit p str isStr
        omega
      have withinNow := within.run (by decide) (fun _ _ => trivial) runs
      exact ⟨fun isStr => ⟨trivial, (withinNow.strings isStr).2⟩, le_rfl⟩

/-! ## Runs with memory that goes on and on -/

theorem exists_start : ∃ rt, AtomRun (fun _ => 0) rt ∧
    Within (fun p => p < 3 * 216) 1 400 rt := by
  obtain ⟨result, runs, isStarting, enough⟩ := starting_jsInitAtoms apart_successive
  obtain ⟨rt, rfl⟩ := Option.ne_none_iff_exists'.mp (enough ample_successive)
  refine ⟨rt, .init apart_successive runs, (isStarting rt rfl).within fun j before p member => ?_⟩
  exact Nat.lt_of_lt_of_le (given_successive j p member) (by rw [jsAtomEnd_eq] at before; omega)

/-- What is asked of memory and sizes. -/
theorem Within.enabled {k : Nat} {operation : AtomOperation}
    (within : Within (fun p => p < 3 * k) bound size rt) (small : size ≤ 10 ^ 6 ∧ bound ≤ 10 ^ 6)
    (takes : ∀ ref, operation.takes.count ref ≤ owns ref)
    (needs : ∀ ref ∈ operation.needs, 0 < owns ref) (right : operation.Right) :
    operation.Enabled owns (successive k) rt := by
  refine ⟨takes, needs, right, within.available, ?_, fun p str isStr => ?_⟩
  · have array := within.array
    omega
  · have count := (within.strings isStr).2
    omega

/-- What is asked where no reference is needed. -/
theorem Within.enabled_of_nil {k : Nat} {operation : AtomOperation}
    (within : Within (fun p => p < 3 * k) bound size rt) (small : size ≤ 10 ^ 6 ∧ bound ≤ 10 ^ 6)
    (takes : operation.takes = []) (needs : operation.needs = []) (right : operation.Right) :
    operation.Enabled owns (successive k) rt :=
  within.enabled small (fun ref => by simp [takes]) (by simp [needs]) right

theorem Within.next {k : Nat} {operation : AtomOperation} {gained : List AtomRef}
    (within : Within (fun p => p < 3 * k) bound size rt) (positive : 1 ≤ bound)
    (runs : operation.run (successive k) rt = some (gained, after)) :
    Within (fun p => p < 3 * (k + 1)) (bound + 1) (grownSize size) after :=
  within.later.run positive (given_successive k) runs

/-- The table `after` of a run that has an atom with a name, after one that had not. -/
structure Entered (owns : AtomRef → Nat) (k : Nat) (bound : Int) (size : Nat) (rt : AtomTable)
    (v : JSAtom) (units : List UInt16) (after : AtomTable) : Prop where
  run : AtomRun (fun ref => owns ref + [AtomRef.atom v].count ref) after
  within : Within (fun p => p < 3 * (k + 1)) (bound + 1) (grownSize size) after
  name : after.atomName v = some (.string, units)
  notNull : v ≠ jsAtomNull
  keeps : Keeps owns rt after

theorem Named.entered {k : Nat} {operation : AtomOperation}
    (named : Named owns rt v .string units after) (run : AtomRun owns rt)
    (within : Within (fun p => p < 3 * k) bound size rt) (positive : 1 ≤ bound)
    (enabled : operation.Enabled owns (successive k) rt) (takes : operation.takes = [])
    (runs : operation.run (successive k) rt = some (atomRefs v, after)) :
    Entered owns k bound size rt v units after where
  run := by
    have next := run.step enabled runs
    rw [atomRefs, if_neg named.notNull] at next
    simpa [AtomOperation.rest, takes] using next
  within := within.next positive runs
  name := named.name
  notNull := named.notNull
  keeps := named.keeps

/-- Memory suffices for every name. -/
theorem AtomRun.exists_newAtomLen {k : Nat} {name : Bytes} (run : AtomRun owns rt)
    (within : Within (fun p => p < 3 * k) bound size rt) (positive : 1 ≤ bound)
    (small : size ≤ 10 ^ 6 ∧ bound ≤ 10 ^ 6)
    (isUnits : nameUnits rt.narrowAtoms name = some units) :
    ∃ v after, rt.jsNewAtomLen name (successive k) = some (v, after) ∧
      Entered owns k bound size rt v units after := by
  have enabled : (AtomOperation.newAtomLen name).Enabled owns (successive k) rt :=
    within.enabled_of_nil small rfl rfl trivial
  obtain ⟨v, after, runs, result⟩ :=
    run.interned.1.exists_jsNewAtomLen enabled.notHuge enabled.available name
  refine ⟨v, after, runs, ?_⟩
  rcases result with ⟨-, -, -, reason⟩ | ⟨units', isUnits', named⟩
  · rcases reason units isUnits with noString | ⟨notEnough, -⟩
    · cases noString
    · exact absurd (within.suffices_successive (by rw [grownSize, jsAtomMax]; omega)) notEnough
  · obtain rfl := Option.some_inj.mp (isUnits'.symm.trans isUnits)
    exact named.entered run within positive enabled rfl (by simp [AtomOperation.run, runs])

/-- Memory suffices for every index. -/
theorem AtomRun.exists_newAtomUInt32 {k n : Nat} (run : AtomRun owns rt)
    (within : Within (fun p => p < 3 * k) bound size rt) (positive : 1 ≤ bound)
    (small : size ≤ 10 ^ 6 ∧ bound ≤ 10 ^ 6) (inRange : n < 2 ^ 32) :
    ∃ v after, rt.jsNewAtomUInt32 n (successive k) = some (v, after) ∧
      Entered owns k bound size rt v (decimal n) after := by
  have enabled : (AtomOperation.newAtomUInt32 n).Enabled owns (successive k) rt :=
    within.enabled_of_nil small rfl rfl inRange
  obtain ⟨v, after, runs, result⟩ :=
    run.interned.1.exists_jsNewAtomUInt32 inRange enabled.notHuge enabled.available
  refine ⟨v, after, runs, ?_⟩
  rcases result with ⟨-, -, -, reason⟩ | named
  · rcases reason with noString | ⟨notEnough, -⟩
    · cases noString
    · exact absurd (within.suffices_successive (by rw [grownSize, jsAtomMax]; omega)) notEnough
  · exact named.entered run within positive enabled rfl (by simp [AtomOperation.run, runs])

theorem nameUnits_letters (narrowAtoms : List Bytes) :
    nameUnits narrowAtoms [120] = some [120] ∧ nameUnits narrowAtoms [121] = some [121] := by
  constructor
  all_goals
    rw [nameUnits, newAtomLen]
    split <;> rfl

namespace AtomRun

/-- In every run the next operation goes through: no assertion fails, no loop goes on
for ever and nothing that has been freed is used.  Atoms and strings that the program
still has are as before, and no count passes that of an `int`. -/
theorem exists_next (run : AtomRun owns rt) {operation : AtomOperation}
    (enabled : operation.Enabled owns malloc rt) :
    ∃ gained after, operation.run malloc rt = some (gained, after) ∧
      AtomRun (fun ref => operation.rest owns ref + gained.count ref) after ∧
      (∀ v, 0 < operation.rest owns (.atom v) →
        ∃ name, rt.atomName v = some name ∧ after.atomName v = some name) ∧
      (∀ p, 0 < operation.rest owns (.value p) →
        after.unitsOf (some p) = rt.unitsOf (some p)) ∧
      ∀ p str, after.strings p = some str → str.refCount < 2 ^ 31 := by
  obtain ⟨interned, -⟩ := run.interned
  obtain ⟨gained, after, runs, done⟩ := interned.exists_run enabled
  have fewer : ∀ ref, operation.rest owns ref ≤ owns ref := fun ref => Nat.sub_le _ _
  have next : AtomRun (fun ref => operation.rest owns ref + gained.count ref) after :=
    .step run enabled runs
  refine ⟨gained, after, runs, next, fun v has => ?_, fun p has => ?_, fun p str isStr => ?_⟩
  · obtain ⟨type, units, isName⟩ := interned.exists_atomName (has.trans_le (fewer _))
    exact ⟨_, isName, done.keeps.atomName has isName⟩
  · obtain ⟨⟨count, string, type⟩, isContent⟩ := interned.inUse (has.trans_le (fewer _))
    obtain ⟨count', type', isThere, -⟩ := done.keeps.content isContent (.inl has)
    simp [unitsOf, isContent, isThere]
  · have count := (next.within.strings isStr).2
    omega

/-- The first atom with a name of its own. -/
theorem exists_next_name : ∃ rt gained after, AtomRun (fun _ => 0) rt ∧
    (AtomOperation.newAtomLen [120]).run (successive 216) rt = some (gained, after) ∧
      AtomRun (fun ref => gained.count ref) after := by
  obtain ⟨rt, run, within⟩ := exists_start
  have enabled : (AtomOperation.newAtomLen [120]).Enabled (fun _ => 0) (successive 216) rt :=
    within.enabled_of_nil (by decide) rfl rfl trivial
  obtain ⟨gained, after, runs, next, -⟩ := exists_next run enabled
  exact ⟨rt, gained, after, run, runs, by simpa [AtomOperation.rest] using next⟩

/-- Atoms that a program has are the same exactly when their names are. -/
theorem atomName_inj (run : AtomRun owns rt) (has : 0 < owns (.atom v))
    (hasOther : 0 < owns (.atom w)) (isName : rt.atomName v = some (type, units))
    (notSymbol : type ≠ .symbol) : rt.atomName w = some (type, units) ↔ v = w := by
  obtain ⟨interned, -⟩ := run.interned
  constructor
  · exact fun isOther => interned.atom_unique notSymbol (interned.range has)
      (interned.range hasOther) isName isOther
  · rintro rfl
    exact isName

/-- The second atom of a letter is the first, and another letter has another. -/
theorem atomName_inj_letters : ∃ owns rt x y again, AtomRun owns rt ∧
    0 < owns (.atom x) ∧ 0 < owns (.atom y) ∧ 0 < owns (.atom again) ∧
      rt.atomName x = some (.string, [120]) ∧ x = again ∧ x ≠ y := by
  obtain ⟨rt, run, within⟩ := exists_start
  obtain ⟨x, first, -, isFirst⟩ := run.exists_newAtomLen within (by decide) (by decide)
    (nameUnits_letters _).1
  obtain ⟨y, second, -, isSecond⟩ := isFirst.run.exists_newAtomLen isFirst.within (by decide)
    (by decide) (nameUnits_letters _).2
  obtain ⟨again, third, -, isThird⟩ := isSecond.run.exists_newAtomLen isSecond.within (by decide)
    (by decide) (nameUnits_letters _).1
  have nameX := isThird.keeps.atomName (by simp)
    (isSecond.keeps.atomName (by simp) isFirst.name)
  have nameY := isThird.keeps.atomName (by simp) isSecond.name
  refine ⟨_, third, x, y, again, isThird.run, by simp, by simp,
    by simp, nameX, ?_, ?_⟩
  · exact (atomName_inj isThird.run (by simp) (by simp) nameX
      (by decide)).mp isThird.name
  · intro same
    have nameSame := (atomName_inj isThird.run (w := y) (by simp)
      (by simp) nameX (by decide)).mpr same
    rw [nameY] at nameSame
    cases nameSame

/-- A string atom that is converted to a string and back is the same atom; only the
string of a tagged number takes memory. -/
theorem jsNewAtomStr_jsAtomToString (run : AtomRun owns rt)
    (enabled : (AtomOperation.atomToString v).Enabled owns malloc rt)
    (isName : rt.atomName v = some (.string, units)) :
    (atomIsTaggedInt v = true ∧ rt.jsAtomToString v malloc = some (none, rt) ∧
      malloc.string = none) ∨
    ∃ p mid, rt.jsAtomToString v malloc = some (some p, mid) ∧ mid.unitsOf (some p) = units ∧
      AtomRun (fun ref => owns ref + [AtomRef.value p].count ref) mid ∧
      ∀ malloc', (AtomOperation.newAtomStr p).Enabled
          (fun ref => owns ref + [AtomRef.value p].count ref) malloc' mid →
        ∃ after, mid.jsNewAtomStr p malloc' = some (v, after) := by
  obtain ⟨interned, -⟩ := run.interned
  have has := enabled.needs _ (List.mem_singleton_self _)
  rcases interned.exists_jsAtomToString isName enabled.available with
    fails | ⟨p, mid, runs, internedMid, keeps, isUnits⟩
  · exact .inl fails
  have isRun : (AtomOperation.atomToString v).run malloc rt = some ([.value p], mid) := by
    simp [AtomOperation.run, runs, valueRefs]
  refine .inr ⟨p, mid, runs, isUnits, .step run enabled isRun, fun malloc' enabledMid => ?_⟩
  obtain ⟨w, after, isAtom, names⟩ := internedMid.exists_jsNewAtomStr (fun _ => rfl)
    enabledMid.notHuge enabledMid.available.toFresh
  have isNameMid := keeps.atomName has isName
  rw [isUnits] at names
  rcases names with ⟨-, -, -, -, noName⟩ | named
  · exact absurd isNameMid (noName (by decide) v)
  · have isNameNow := named.keeps.atomName has isNameMid
    have range := named.interned.range (v := w) (by simp)
    obtain rfl := named.interned.atom_unique (by decide) (interned.range has) range isNameNow
      named.name
    exact ⟨after, isAtom⟩

theorem jsNewAtomStr_jsAtomToString_number : ∃ (rt mid after : AtomTable) (p : Address),
    AtomRun (fun ref => [AtomRef.atom (atomFromUInt32 5)].count ref) rt ∧
      rt.jsAtomToString (atomFromUInt32 5) (successive 217) = some (some p, mid) ∧
        mid.unitsOf (some p) = decimal 5 ∧
          mid.jsNewAtomStr p (successive 218) = some (atomFromUInt32 5, after) := by
  obtain ⟨start, run, within⟩ := exists_start
  obtain ⟨v, rt, runs, isNumber⟩ := run.exists_newAtomUInt32 within (by decide) (by decide)
    (by decide : 5 < 2 ^ 32)
  obtain rfl : atomFromUInt32 5 = v := congrArg Prod.fst (Option.some_inj.mp runs)
  have enabled : (AtomOperation.atomToString (atomFromUInt32 5)).Enabled
      (fun ref => 0 + [AtomRef.atom (atomFromUInt32 5)].count ref) (successive 217) rt :=
    isNumber.within.enabled (by decide) (fun ref => by simp [AtomOperation.takes])
      (by simp [AtomOperation.needs]) trivial
  rcases jsNewAtomStr_jsAtomToString isNumber.run enabled isNumber.name with
    ⟨-, -, noMemory⟩ | ⟨p, mid, converts, isUnits, next, back⟩
  · cases noMemory
  · have withinMid : Within (fun p => p < 3 * 218) 3 (grownSize (grownSize 400)) mid :=
      isNumber.within.next (by decide) (show (AtomOperation.atomToString _).run _ rt = _ by
        rw [AtomOperation.run, converts]; rfl)
    obtain ⟨after, same⟩ := back (successive 218) (withinMid.enabled (by decide) (fun ref => by
      simp [AtomOperation.takes]) (by simp [AtomOperation.needs]) trivial)
    exact ⟨rt, mid, after, p, by simpa using isNumber.run, converts, isUnits, same⟩

/-- A name that is given as a C string has the chars that are read from its bytes:
those of an atom with these bytes as chars, or those that they are decoded to.
`JS_ATOM_NULL` says that there is no such name, or that memory does not suffice. -/
theorem jsNewAtomLen_name (run : AtomRun owns rt) {name : Bytes}
    (enabled : (AtomOperation.newAtomLen name).Enabled owns malloc rt) :
    ∃ v after, rt.jsNewAtomLen name malloc = some (v, after) ∧
      (v ≠ jsAtomNull → ∃ units, nameUnits rt.narrowAtoms name = some units ∧
        after.atomName v = some (.string, units)) ∧
      (v = jsAtomNull → ∀ units, nameUnits rt.narrowAtoms name = some units →
        malloc.string = none ∨
          ¬Suffices malloc rt ∧ ∀ w, rt.atomName w ≠ some (.string, units)) := by
  obtain ⟨interned, -⟩ := run.interned
  obtain ⟨v, after, runs, result⟩ :=
    interned.exists_jsNewAtomLen enabled.notHuge enabled.available name
  refine ⟨v, after, runs, fun notNull => ?_, fun isNull => ?_⟩
  · rcases result with ⟨isNull, -⟩ | ⟨units, isUnits, named⟩
    · exact absurd isNull notNull
    · exact ⟨units, isUnits, named.name⟩
  · rcases result with ⟨-, -, -, reason⟩ | ⟨_, -, named⟩
    · exact reason
    · exact absurd isNull named.notNull

theorem jsNewAtomLen_name_letter : ∃ rt v after, AtomRun (fun _ => 0) rt ∧
    rt.jsNewAtomLen [120] (successive 216) = some (v, after) ∧
      v ≠ jsAtomNull ∧ after.atomName v = some (.string, [120]) := by
  obtain ⟨rt, run, within⟩ := exists_start
  have enabled : (AtomOperation.newAtomLen [120]).Enabled (fun _ => 0) (successive 216) rt :=
    within.enabled_of_nil (by decide) rfl rfl trivial
  obtain ⟨v, after, runs, isName, isNull⟩ := jsNewAtomLen_name run enabled
  have isLetter := (nameUnits_letters rt.narrowAtoms).1
  have notNull : v ≠ jsAtomNull := by
    intro null
    rcases isNull null _ isLetter with noString | ⟨notEnough, -⟩
    · cases noString
    · exact notEnough (within.suffices_successive (by decide))
  obtain ⟨units, isUnits, named⟩ := isName notNull
  obtain rfl := Option.some_inj.mp (isUnits.symm.trans isLetter)
  exact ⟨rt, v, after, run, runs, notNull, named⟩

/-- An atom is the array index of which it is the atom. -/
theorem jsAtomIsArrayIndex_iff (run : AtomRun owns rt) (has : 0 < owns (.atom v)) {n : Nat}
    (isIndex : n < 2 ^ 32 - 1) (enabled : (AtomOperation.newAtomUInt32 n).Enabled owns malloc rt) :
    ∃ index w after, rt.jsAtomIsArrayIndex v = some index ∧
      rt.jsNewAtomUInt32 n malloc = some (w, after) ∧
        (w ≠ jsAtomNull → (index = some n ↔ w = v)) ∧
          (w = jsAtomNull → index = some n → malloc.string = none) := by
  obtain ⟨interned, -⟩ := run.interned
  obtain ⟨index, isArrayIndex, index_iff⟩ := interned.jsAtomIsArrayIndex_eq has
  obtain ⟨w, after, runs, result⟩ :=
    interned.exists_jsNewAtomUInt32 enabled.right enabled.notHuge enabled.available
  obtain ⟨type, units', isName⟩ := interned.exists_atomName has
  refine ⟨index, w, after, isArrayIndex, runs, fun notNull => ?_, fun isNull isSame => ?_⟩
  · have named := result.resolve_left fun isNull => notNull isNull.1
    have isNameNow := named.keeps.atomName has isName
    rw [index_iff]
    constructor
    · rintro ⟨-, isDecimal⟩
      have hasNow : 0 < owns (.atom v) + [AtomRef.atom w].count (.atom v) :=
        Nat.add_pos_left has _
      exact (named.interned.atom_unique (by decide) (named.interned.range hasNow)
        (named.interned.range (v := w) (by simp)) (named.keeps.atomName has isDecimal)
        named.name).symm
    · rintro rfl
      rw [isName, ← isNameNow, named.name]
      exact ⟨isIndex, rfl⟩
  · rcases result with ⟨-, -, -, reason⟩ | named
    · exact reason.resolve_right fun noAtom => noAtom.2 v ((index_iff n).mp isSame).2
    · exact absurd isNull named.notNull

/-- An index that is not tagged. -/
theorem jsAtomIsArrayIndex_iff_large : ∃ owns rt v, AtomRun owns rt ∧ 0 < owns (.atom v) ∧
    atomIsTaggedInt v = false ∧ rt.jsAtomIsArrayIndex v = some (some (2 ^ 31)) := by
  obtain ⟨start, run, within⟩ := exists_start
  obtain ⟨v, rt, -, isFirst⟩ := run.exists_newAtomUInt32 within (by decide) (by decide)
    (by decide : 2 ^ 31 < 2 ^ 32)
  obtain ⟨w, after, again, isSecond⟩ := isFirst.run.exists_newAtomUInt32 isFirst.within
    (by decide) (by decide) (by decide : 2 ^ 31 < 2 ^ 32)
  have has : 0 < 0 + [AtomRef.atom v].count (.atom v) := by simp
  have same : w = v := isSecond.run.interned.1.atom_unique (by decide)
    (isSecond.run.interned.1.range (by simp)) (isSecond.run.interned.1.range (by simp))
    isSecond.name (isSecond.keeps.atomName has isFirst.name)
  have enabled : (AtomOperation.newAtomUInt32 (2 ^ 31)).Enabled
      (fun ref => 0 + [AtomRef.atom v].count ref) (successive 217) rt :=
    isFirst.within.enabled_of_nil (by decide) rfl rfl (by decide : 2 ^ 31 < 2 ^ 32)
  obtain ⟨index, w', after', isIndex, runs, iff, -⟩ :=
    jsAtomIsArrayIndex_iff isFirst.run has (by decide : 2 ^ 31 < 2 ^ 32 - 1) enabled
  obtain ⟨rfl, -⟩ := Prod.mk.inj (Option.some_inj.mp (again.symm.trans runs))
  refine ⟨_, rt, v, isFirst.run, has, ?_, isIndex.trans
    (congrArg some ((iff isSecond.notNull).mpr same))⟩
  by_contra isTagged
  have name := isFirst.name
  rw [atomName, if_pos (Bool.of_not_eq_false isTagged)] at name
  have isUnits := (Prod.mk.inj (Option.some_inj.mp name)).2
  have large : atomToUInt32 v = 2 ^ 31 := decimal_injective isUnits
  have small : atomToUInt32 v ≤ 2 ^ 31 - 1 := atomToUInt32_le v
  omega

end AtomRun

end AtomTable

end Jib.QuickJS
