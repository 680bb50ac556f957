import Jib.CycleCollection
import Jib.LinkedLists
import Jib.QuickJSInterface

/-!
# Reference counting and garbage collection in QuickJS

What `JS_FreeValue` and `JS_RunGC` do to the objects of a runtime: their headers
with the reference counts, the fields with references to others, and the lists
that the headers are linked into.  Reading memory that has been freed, a failing
assertion and a `NULL` that is followed have no result.  No `WeakMap` or `WeakSet`
has a record: `first_weak_ref` of every object is `NULL`.
-/

namespace Jib.QuickJS

open LinkedLists

/-! ## Objects -/

/-- `JSGCObjectTypeEnum`. -/
inductive GCObjType
  | jsObject
  | functionBytecode
  | shape
  | varRef
  | asyncFunction
  | jsContext
  deriving DecidableEq

/-- The lists of a runtime that headers are linked into. -/
inductive GCList
  | gcObjList
  | tmpObjList
  | gcZeroRefCountList
  deriving DecidableEq

/-- `JSGCPhaseEnum`. -/
inductive GCPhase
  | none
  | decref
  | removeCycles
  deriving DecidableEq

/-- `JSGCObjectHeader`, but for its links. -/
structure GCObjectHeader where
  refCount : Int
  gcObjType : GCObjType
  mark : Bool
  deriving DecidableEq

/-- A reference to an object of the collector, by the function that frees it. -/
inductive GCRef
  | value (pointer : Address)
  | shape (pointer : Address)
  | varRef (pointer : Address)
  | asyncFunc (pointer : Address)
  | context (pointer : Address)
  deriving DecidableEq

def GCRef.target : GCRef → Address
  | .value pointer | .shape pointer | .varRef pointer | .asyncFunc pointer
  | .context pointer => pointer

/-- The types of objects that a reference can be to. -/
def GCRef.Suits : GCRef → GCObjType → Prop
  | .value _, type => type = .jsObject ∨ type = .functionBytecode
  | .shape _, type => type = .shape
  | .varRef _, type => type = .varRef
  | .asyncFunc _, type => type = .asyncFunction
  | .context _, type => type = .jsContext

/-- A `JSValue` that the collector sees: it may be an object or the bytecode of a
function. -/
abbrev GCValue := Option Address

def GCValue.refs (value : GCValue) : List GCRef :=
  value.toList.map .value

/-- `JSProperty` with the kind that `JS_PROP_TMASK` gives. -/
inductive JSProperty
  | normal (value : GCValue)
  | getset (getter setter : Option Address)
  | varRef (pointer : Address)
  | autoinit (realm : Address)
  deriving DecidableEq

/-- What `mark_children` and `free_property` find in a property. -/
def JSProperty.refs : JSProperty → List GCRef
  | .normal value => GCValue.refs value
  | .getset getter setter => GCValue.refs getter ++ GCValue.refs setter
  | .varRef pointer => [.varRef pointer]
  | .autoinit realm => [.context realm]

/-- The data of the class of an object.  `values` stands for the classes whose
`gc_mark` and `finalizer` go through the values that they hold, such as arrays;
`queue` are the values of the requests that an async generator has. -/
inductive ClassData
  | none
  | values (held : List GCValue)
  | generator (funcState : Option Address)
  | asyncFunctionResolve (asyncFunctionData : Option Address)
  | asyncGenerator (queue : List GCValue) (funcState : Option Address)
  | cFunction (realm : Option Address)
  | bytecodeFunction (homeObject functionBytecode : Option Address)
      (varRefs : List (Option Address))
  | boundFunction (funcObj thisVal : GCValue) (argv : List GCValue)
  deriving DecidableEq

/-- What the class of an object marks, and what it frees in the same order. -/
def ClassData.refs : ClassData → List GCRef
  | .none => []
  | .values held => held.flatMap GCValue.refs
  | .generator funcState => funcState.toList.map .asyncFunc
  | .asyncFunctionResolve asyncFunctionData => asyncFunctionData.toList.map .asyncFunc
  | .asyncGenerator queue funcState =>
      queue.flatMap GCValue.refs ++ funcState.toList.map .asyncFunc
  | .cFunction realm => realm.toList.map .context
  | .bytecodeFunction homeObject functionBytecode varRefs =>
      GCValue.refs homeObject ++
        match functionBytecode with
        | .none => []
        | some b => varRefs.flatMap (fun varRef => varRef.toList.map .varRef) ++ [.value b]
  | .boundFunction funcObj thisVal argv =>
      GCValue.refs funcObj ++ GCValue.refs thisVal ++ argv.flatMap GCValue.refs

/-- `JSModuleDef`: the variables that it exports, and its other values. -/
structure JSModuleDef where
  varRefs : List (Option Address)
  values : List GCValue
  deriving DecidableEq

def JSModuleDef.refs (module : JSModuleDef) : List GCRef :=
  module.varRefs.flatMap (fun varRef => varRef.toList.map .varRef) ++
    module.values.flatMap GCValue.refs

/-- The fields of an object with its type. -/
inductive GCObject
  | jsObject (sh : Address) (properties : List JSProperty) (classData : ClassData)
  | functionBytecode (cpool : List GCValue) (realm : Option Address)
  | shape (proto : Option Address)
  | detachedVarRef (value : GCValue)
  | varRef (asyncFunc : Option Address)
  | asyncFunction (isCompleted : Bool) (stack : List GCValue) (curFunc thisVal : GCValue)
      (resolvingFuncs : List GCValue)
  | jsContext (loadedModules : List JSModuleDef) (values : List GCValue)
      (arrayShape : Option Address)
  deriving DecidableEq

namespace GCObject

def gcObjType : GCObject → GCObjType
  | .jsObject .. => .jsObject
  | .functionBytecode .. => .functionBytecode
  | .shape _ => .shape
  | .detachedVarRef _ | .varRef _ => .varRef
  | .asyncFunction .. => .asyncFunction
  | .jsContext .. => .jsContext

/-- The references in the order in which `mark_children` goes through them. -/
def marks : GCObject → List GCRef
  | .jsObject sh properties classData =>
      .shape sh :: (properties.flatMap JSProperty.refs ++ classData.refs)
  | .functionBytecode cpool realm =>
      cpool.flatMap GCValue.refs ++ realm.toList.map .context
  | .shape proto => GCValue.refs proto
  | .detachedVarRef value => GCValue.refs value
  | .varRef asyncFunc => asyncFunc.toList.map .asyncFunc
  | .asyncFunction isCompleted stack curFunc thisVal resolvingFuncs =>
      (if isCompleted then []
        else GCValue.refs curFunc ++ GCValue.refs thisVal ++ stack.flatMap GCValue.refs) ++
      resolvingFuncs.flatMap GCValue.refs
  | .jsContext loadedModules values arrayShape =>
      loadedModules.flatMap JSModuleDef.refs ++ values.flatMap GCValue.refs ++
        arrayShape.toList.map .shape

/-- The references in the order in which they are freed with the object. -/
def frees : GCObject → List GCRef
  | .jsObject sh properties classData =>
      properties.flatMap JSProperty.refs ++ .shape sh :: classData.refs
  | .asyncFunction isCompleted stack curFunc thisVal resolvingFuncs =>
      (if isCompleted then []
        else stack.flatMap GCValue.refs ++ GCValue.refs curFunc ++ GCValue.refs thisVal) ++
      resolvingFuncs.flatMap GCValue.refs
  | object => object.marks

/-- An object frees what it marks. -/
theorem frees_perm_marks (object : GCObject) : object.frees.Perm object.marks := by
  cases object with
  | jsObject sh properties classData => exact List.perm_middle
  | asyncFunction isCompleted stack curFunc thisVal resolvingFuncs =>
      cases isCompleted with
      | true => exact .refl _
      | false =>
          refine List.Perm.append_right _ ?_
          simp only [Bool.false_eq_true, if_false]
          rw [List.append_assoc]
          exact List.perm_append_comm
  | _ => exact .refl _

end GCObject

/-! ## The runtime -/

/-- The memory of the collector's objects and the lists of the runtime.  Fields
are `none` once they have been freed. -/
structure GCRuntime where
  links : Links GCList Address
  gcPhase : GCPhase
  headers : Address → Option GCObjectHeader
  fields : Address → Option GCObject

namespace GCRuntime

def setHeader (rt : GCRuntime) (p : Address) (header : GCObjectHeader) : GCRuntime :=
  { rt with headers := Function.update rt.headers p (some header) }

/-- `list_del` and `list_add_tail`. -/
def moveTail (rt : GCRuntime) (p : Address) (list : GCList) : Option GCRuntime := do
  let links ← rt.links.listDel p
  return { rt with links := ← links.listAddTail p list }

/-- `list_del` and `list_add`. -/
def moveFront (rt : GCRuntime) (p : Address) (list : GCList) : Option GCRuntime := do
  let links ← rt.links.listDel p
  return { rt with links := ← links.listAdd p list }

/-- `js_free_rt` of an object: nothing of it can be read any more. -/
def jsFreeRT (rt : GCRuntime) (p : Address) : Option GCRuntime := do
  let _ ← rt.headers p
  return { rt with
    links := (rt.links.setNext (.node p) none).setPrev (.node p) none
    headers := Function.update rt.headers p none
    fields := Function.update rt.fields p none }

/-- `remove_gc_object`. -/
def removeGCObject (rt : GCRuntime) (p : Address) : Option GCRuntime := do
  return { rt with links := ← rt.links.listDel p }

/-- `add_gc_object` of memory that has just been allocated, with one reference. -/
def addGCObject (rt : GCRuntime) (p : Address) (object : GCObject) : Option GCRuntime := do
  return { rt with
    links := ← rt.links.listAddTail p .gcObjList
    headers := Function.update rt.headers p (some ⟨1, object.gcObjType, false⟩)
    fields := Function.update rt.fields p (some object) }

/-- `mark_children`. -/
def markChildren (markFunc : Address → GCRuntime → Option GCRuntime) (p : Address)
    (rt : GCRuntime) : Option GCRuntime := do
  let object ← rt.fields p
  object.marks.foldlM (fun rt ref => markFunc ref.target rt) rt

/-! ## Freeing -/

section Free

/- `free_zero_refcount` calls the functions below for the objects that it frees,
and one of them calls it; `freeZeroRefcount` is what that call runs. -/
variable (freeZeroRefcount : GCRuntime → Option GCRuntime)

/-- An object without references is freed later, where cycles are not being
removed. -/
def queueZeroRefcount (p : Address) (rt : GCRuntime) : Option GCRuntime := do
  if rt.gcPhase ≠ .removeCycles then
    let rt ← rt.moveFront p .gcZeroRefCountList
    if rt.gcPhase = .none then freeZeroRefcount rt else return rt
  else return rt

/-- `JS_FreeValueRT` of an object or of the bytecode of a function. -/
def jsFreeValueRT (p : Address) (rt : GCRuntime) : Option GCRuntime := do
  let header ← rt.headers p
  let header := { header with refCount := header.refCount - 1 }
  let rt := rt.setHeader p header
  if header.refCount ≤ 0 then queueZeroRefcount freeZeroRefcount p rt else return rt

/-- `async_func_free`. -/
def asyncFuncFree (p : Address) (rt : GCRuntime) : Option GCRuntime := do
  let header ← rt.headers p
  let header := { header with refCount := header.refCount - 1 }
  let rt := rt.setHeader p header
  if header.refCount = 0 then queueZeroRefcount freeZeroRefcount p rt else return rt

/-- The fields of an object are freed, then the object itself. -/
def freeNow (freeRef : GCRef → GCRuntime → Option GCRuntime) (p : Address) (rt : GCRuntime) :
    Option GCRuntime := do
  let object ← rt.fields p
  let rt := { rt with fields := Function.update rt.fields p none }
  let rt ← object.frees.foldlM (fun rt ref => freeRef ref rt) rt
  let rt ← rt.removeGCObject p
  rt.jsFreeRT p

/-- References that shapes and variables have. -/
def freeValueRef : GCRef → GCRuntime → Option GCRuntime
  | .value p, rt => jsFreeValueRT freeZeroRefcount p rt
  | .asyncFunc p, rt => asyncFuncFree freeZeroRefcount p rt
  | _, _ => none

/-- `js_free_shape`. -/
def jsFreeShape (p : Address) (rt : GCRuntime) : Option GCRuntime := do
  let header ← rt.headers p
  let header := { header with refCount := header.refCount - 1 }
  let rt := rt.setHeader p header
  if header.refCount ≤ 0 then
    guard (header.refCount = 0)
    freeNow (freeValueRef freeZeroRefcount) p rt
  else return rt

/-- `free_var_ref`. -/
def freeVarRef (p : Address) (rt : GCRuntime) : Option GCRuntime := do
  let header ← rt.headers p
  guard (0 < header.refCount)
  let header := { header with refCount := header.refCount - 1 }
  let rt := rt.setHeader p header
  if header.refCount = 0 then freeNow (freeValueRef freeZeroRefcount) p rt
  else return rt

/-- References that contexts have. -/
def freeContextRef : GCRef → GCRuntime → Option GCRuntime
  | .value p, rt => jsFreeValueRT freeZeroRefcount p rt
  | .varRef p, rt => freeVarRef freeZeroRefcount p rt
  | .shape p, rt => jsFreeShape freeZeroRefcount p rt
  | _, _ => none

/-- `JS_FreeContext`. -/
def jsFreeContext (p : Address) (rt : GCRuntime) : Option GCRuntime := do
  let header ← rt.headers p
  let header := { header with refCount := header.refCount - 1 }
  let rt := rt.setHeader p header
  if header.refCount > 0 then return rt
  else
    guard (header.refCount = 0)
    freeNow (freeContextRef freeZeroRefcount) p rt

/-- Frees a reference by the function for its kind. -/
def freeRef : GCRef → GCRuntime → Option GCRuntime
  | .value p, rt => jsFreeValueRT freeZeroRefcount p rt
  | .asyncFunc p, rt => asyncFuncFree freeZeroRefcount p rt
  | .varRef p, rt => freeVarRef freeZeroRefcount p rt
  | .shape p, rt => jsFreeShape freeZeroRefcount p rt
  | .context p, rt => jsFreeContext freeZeroRefcount p rt

/-- The common end of `free_object`, `free_function_bytecode` and
`__async_func_free`: where cycles are being removed, an object that others still
refer to is freed later. -/
def finishFree (p : Address) (rt : GCRuntime) : Option GCRuntime := do
  let rt ← rt.removeGCObject p
  let header ← rt.headers p
  if rt.gcPhase = .removeCycles ∧ header.refCount ≠ 0 then
    return { rt with links := ← rt.links.listAddTail p .gcZeroRefCountList }
  else rt.jsFreeRT p

/-- `free_gc_object`. -/
def freeGCObject (p : Address) (rt : GCRuntime) : Option GCRuntime := do
  let header ← rt.headers p
  match header.gcObjType with
  | .jsObject | .functionBytecode | .asyncFunction =>
      let object ← rt.fields p
      let rt := { rt with fields := Function.update rt.fields p none }
      let rt ← object.frees.foldlM (fun rt ref => freeRef freeZeroRefcount ref rt) rt
      finishFree p rt
  | .shape | .varRef | .jsContext => none

end Free

/-- One round of the loop of `free_zero_refcount`.  The loop runs in a phase in
which nothing that is freed starts it again. -/
def freeZeroRefcountBody (p : Address) (rt : GCRuntime) : Option GCRuntime := do
  let header ← rt.headers p
  guard (header.refCount = 0)
  freeGCObject (fun _ => none) p rt

/-- `free_zero_refcount`. -/
def freeZeroRefcount (fuel : Nat) (rt : GCRuntime) : Option GCRuntime := do
  let rt ← listDrain GCRuntime.links freeZeroRefcountBody .gcZeroRefCountList fuel
    { rt with gcPhase := .decref }
  return { rt with gcPhase := .none }

/-- `JS_FreeValue` of an object. -/
def jsFreeValue (fuel : Nat) (p : Address) (rt : GCRuntime) : Option GCRuntime :=
  jsFreeValueRT (freeZeroRefcount fuel) p rt

/-- `JS_DupValue` of an object. -/
def jsDupValue (p : Address) (rt : GCRuntime) : Option GCRuntime := do
  let header ← rt.headers p
  return rt.setHeader p { header with refCount := header.refCount + 1 }

/-! ## Collecting -/

/-- `gc_decref_child`. -/
def gcDecrefChild (p : Address) (rt : GCRuntime) : Option GCRuntime := do
  let header ← rt.headers p
  guard (0 < header.refCount)
  let header := { header with refCount := header.refCount - 1 }
  let rt := rt.setHeader p header
  if header.refCount = 0 ∧ header.mark then rt.moveTail p .tmpObjList else return rt

/-- One round of the loop of `gc_decref`. -/
def gcDecrefBody (p : Address) (rt : GCRuntime) : Option GCRuntime := do
  let header ← rt.headers p
  guard (header.mark = false)
  let rt ← markChildren gcDecrefChild p rt
  let header ← rt.headers p
  let header := { header with mark := true }
  let rt := rt.setHeader p header
  if header.refCount = 0 then rt.moveTail p .tmpObjList else return rt

/-- `gc_decref`. -/
def gcDecref (fuel : Nat) (rt : GCRuntime) : Option GCRuntime := do
  let rt := { rt with links := rt.links.initListHead .tmpObjList }
  let el ← rt.links.next (.head .gcObjList)
  listForEachSafe GCRuntime.links gcDecrefBody .gcObjList fuel el (rt.links.next el) rt

/-- `gc_scan_incref_child`. -/
def gcScanIncrefChild (p : Address) (rt : GCRuntime) : Option GCRuntime := do
  let header ← rt.headers p
  let header := { header with refCount := header.refCount + 1 }
  if header.refCount = 1 then
    (rt.setHeader p { header with mark := false }).moveTail p .gcObjList
  else return rt.setHeader p header

/-- `gc_scan_incref_child2`. -/
def gcScanIncrefChild2 (p : Address) (rt : GCRuntime) : Option GCRuntime := do
  let header ← rt.headers p
  return rt.setHeader p { header with refCount := header.refCount + 1 }

/-- One round of the first loop of `gc_scan`. -/
def gcScanBody (p : Address) (rt : GCRuntime) : Option GCRuntime := do
  let header ← rt.headers p
  guard (0 < header.refCount)
  markChildren gcScanIncrefChild p (rt.setHeader p { header with mark := false })

/-- `gc_scan`. -/
def gcScan (fuel : Nat) (rt : GCRuntime) : Option GCRuntime := do
  let el ← rt.links.next (.head .gcObjList)
  let rt ← listForEach GCRuntime.links gcScanBody .gcObjList fuel el rt
  let el ← rt.links.next (.head .tmpObjList)
  listForEach GCRuntime.links (markChildren gcScanIncrefChild2) .tmpObjList fuel el rt

/-- One round of the first loop of `gc_free_cycles`. -/
def gcFreeCyclesBody (p : Address) (rt : GCRuntime) : Option GCRuntime := do
  let header ← rt.headers p
  match header.gcObjType with
  | .jsObject | .functionBytecode | .asyncFunction => freeGCObject (fun _ => none) p rt
  | .shape | .varRef | .jsContext => rt.moveTail p .gcZeroRefCountList

/-- One round of the second loop of `gc_free_cycles`. -/
def gcFreeZombie (p : Address) (rt : GCRuntime) : Option GCRuntime := do
  let header ← rt.headers p
  match header.gcObjType with
  | .jsObject | .functionBytecode | .asyncFunction => rt.jsFreeRT p
  | .shape | .varRef | .jsContext => none

/-- `gc_free_cycles`. -/
def gcFreeCycles (fuel : Nat) (rt : GCRuntime) : Option GCRuntime := do
  let rt ← listDrain GCRuntime.links gcFreeCyclesBody .tmpObjList fuel
    { rt with gcPhase := .removeCycles }
  let rt := { rt with gcPhase := .none }
  let el ← rt.links.next (.head .gcZeroRefCountList)
  let rt ← listForEachSafe GCRuntime.links gcFreeZombie .gcZeroRefCountList fuel el
    (rt.links.next el) rt
  return { rt with links := rt.links.initListHead .gcZeroRefCountList }

/-- `JS_RunGC`. -/
def jsRunGC (fuel : Nat) (rt : GCRuntime) : Option GCRuntime := do
  let rt ← gcDecref fuel rt
  let rt ← gcScan fuel rt
  gcFreeCycles fuel rt

end GCRuntime

end Jib.QuickJS
