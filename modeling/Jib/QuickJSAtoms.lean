import Jib.HashChains
import Jib.QuickJSInterface
import Jib.QuickJSStrings
import Mathlib.Data.Option.Basic

/-!
# The atoms of QuickJS

Atoms are the indices of an array; a free place of the array has the next free
one.  The structure of an atom is a string that may be in use as a value too.
String atoms are in a hash table whose chains run through their structures.
An atom with the highest bit set is a number and has no structure.

A loop that does not end, an assertion that fails, an access outside an array
and an access to memory that is not allocated give `none`.
-/

namespace Jib.QuickJS

open HashChains UnicodeText

abbrev JSAtom := Nat

def jsAtomNull : JSAtom := 0

def jsAtomTagInt : Nat := 2 ^ 31

def jsAtomMaxInt : Nat := jsAtomTagInt - 1

def jsAtomMax : Nat := 2 ^ 30 - 1

def jsAtomHashMask : UInt32 := 0x3FFFFFFF

/-- `JS_ATOM_TYPE_x`. -/
inductive AtomType
  | string
  | globalSymbol
  | symbol
  | privateSymbol
  deriving DecidableEq

def AtomType.code : AtomType → UInt32
  | .string => 1
  | .globalSymbol => 2
  | .symbol => 3
  | .privateSymbol => 4

def jsAtomHashSymbol : Nat := 0

def jsAtomHashPrivate : Nat := 1

/-- `JSAtomKindEnum`. -/
inductive AtomKind
  | string
  | symbol
  | privateSymbol
  deriving DecidableEq

/-- `struct JSString`; `atomType` is `none` for a string that is not an atom. -/
structure JSAtomStruct where
  refCount : Int
  string : JSString
  hash : Nat
  atomType : Option AtomType
  hashNext : Nat
  deriving DecidableEq

/-- An entry of `atom_array`: `atom_set_free` or a pointer. -/
inductive AtomSlot
  | free (next : Nat)
  | atom (p : Address)
  deriving DecidableEq

/-- The fields of a runtime for atoms, and the strings in memory. -/
structure AtomTable where
  atomHash : List Nat
  atomCount : Int
  atomCountResize : Int
  atomArray : List AtomSlot
  atomFreeIndex : Nat
  strings : Address → Option JSAtomStruct

/-- What the allocations of one operation give. -/
structure Mallocs where
  hash : Bool
  array : Bool
  nullAtom : Option Address
  atom : Option Address
  string : Option Address

/-! ## Numbers -/

def atomIsTaggedInt (v : JSAtom) : Bool :=
  v &&& jsAtomTagInt != 0

def atomFromUInt32 (v : Nat) : Nat :=
  v ||| jsAtomTagInt

def atomToUInt32 (atom : JSAtom) : Nat :=
  atom &&& jsAtomMaxInt

def isDigit (c : UInt8) : Bool :=
  48 ≤ c && c ≤ 57

def isNum (c : UInt16) : Bool :=
  48 ≤ c && c ≤ 57

/-- One more digit of `is_num_string`. -/
def addDigit (n : Nat) (c : UInt16) : Option Nat :=
  if isNum c then
    let n64 := n * 10 + (c.toNat - 48)
    if n64 >>> 32 ≠ 0 then none else some n64
  else none

/-- `is_num_string`. -/
def isNumString (p : JSString) : Option Nat :=
  match p.units with
  | [] => none
  | c :: chars =>
      if 10 < (c :: chars).length then none
      else if isNum c then
        if c = 48 then if chars ≠ [] then none else some 0
        else chars.foldlM addDigit (c.toNat - 48)
      else none

/-- `snprintf` of a number with `%u`. -/
def printUInt (n : Nat) : Bytes :=
  (Nat.toDigits 10 n).map fun digit => .ofNat digit.toNat

/-- `js_atom_init`. -/
def jsAtomInit : List String :=
  ["null", "false", "true", "if", "else", "return", "var", "this", "delete", "void", "typeof",
    "new", "in", "instanceof", "do", "while", "for", "break", "continue", "switch", "case",
    "default", "throw", "try", "catch", "finally", "function", "debugger", "with", "class",
    "const", "enum", "export", "extends", "import", "super", "implements", "interface", "let",
    "package", "private", "protected", "public", "static", "yield", "await", "", "length",
    "fileName", "lineNumber", "message", "cause", "errors", "stack", "name", "toString",
    "toLocaleString", "valueOf", "eval", "prototype", "constructor", "configurable", "writable",
    "enumerable", "value", "get", "set", "of", "__proto__", "undefined", "number", "boolean",
    "string", "object", "symbol", "integer", "unknown", "arguments", "callee", "caller",
    "<eval>", "<ret>", "<var>", "<arg_var>", "<with>", "lastIndex", "target", "index", "input",
    "defineProperties", "apply", "join", "concat", "split", "construct", "getPrototypeOf",
    "setPrototypeOf", "isExtensible", "preventExtensions", "has", "deleteProperty",
    "defineProperty", "getOwnPropertyDescriptor", "ownKeys", "add", "done", "next", "values",
    "source", "flags", "global", "unicode", "raw", "new.target", "this.active_func",
    "<home_object>", "<computed_field>", "<static_computed_field>", "<class_fields_init>",
    "<brand>", "#constructor", "as", "from", "meta", "*default*", "*", "Module", "then",
    "resolve", "reject", "promise", "proxy", "revoke", "async", "exec", "groups", "indices",
    "status", "reason", "globalThis", "bigint", "not-equal", "timed-out", "ok", "toJSON",
    "Object", "Array", "Error", "Number", "String", "Boolean", "Symbol", "Arguments", "Math",
    "JSON", "Date", "Function", "GeneratorFunction", "ForInIterator", "RegExp", "ArrayBuffer",
    "SharedArrayBuffer", "Uint8ClampedArray", "Int8Array", "Uint8Array", "Int16Array",
    "Uint16Array", "Int32Array", "Uint32Array", "BigInt64Array", "BigUint64Array",
    "Float32Array", "Float64Array", "DataView", "BigInt", "Map", "Set", "WeakMap", "WeakSet",
    "Map Iterator", "Set Iterator", "Array Iterator", "String Iterator",
    "RegExp String Iterator", "Generator", "Proxy", "Promise", "PromiseResolveFunction",
    "PromiseRejectFunction", "AsyncFunction", "AsyncFunctionResolve", "AsyncFunctionReject",
    "AsyncGeneratorFunction", "AsyncGenerator", "EvalError", "RangeError", "ReferenceError",
    "SyntaxError", "TypeError", "URIError", "InternalError", "<brand>", "Symbol.toPrimitive",
    "Symbol.iterator", "Symbol.match", "Symbol.matchAll", "Symbol.replace", "Symbol.search",
    "Symbol.split", "Symbol.toStringTag", "Symbol.isConcatSpreadable", "Symbol.hasInstance",
    "Symbol.species", "Symbol.unscopables", "Symbol.asyncIterator"]

/-- `JS_ATOM_END`. -/
def jsAtomEnd : Nat := jsAtomInit.length + 1

set_option maxRecDepth 2000 in
theorem jsAtomEnd_eq : jsAtomEnd = 216 := rfl

def jsAtomEmptyString : JSAtom := 47

def jsAtomPrivateBrand : JSAtom := 202

def jsAtomSymbolToPrimitive : JSAtom := 203

/-- `__JS_AtomIsConst`; tagged numbers are negative as `int32_t`. -/
def atomIsConst (v : JSAtom) : Bool :=
  v < jsAtomEnd || jsAtomTagInt ≤ v

/-! ## Strings -/

def hashString8 (str : List UInt8) (h : UInt32) : UInt32 :=
  str.foldl (fun h c => h * 263 + c.toUInt32) h

def hashString16 (str : List UInt16) (h : UInt32) : UInt32 :=
  str.foldl (fun h c => h * 263 + c.toUInt32) h

def hashString : JSString → UInt32 → UInt32
  | .str8 chars, h => hashString8 chars h
  | .str16 chars, h => hashString16 chars h

/-- The loop of `memcmp16`, `memcmp16_8` and `memcmp`. -/
def memcmp : Nat → List UInt16 → List UInt16 → Option Int
  | 0, _, _ => some 0
  | len + 1, first :: src1, second :: src2 =>
      let c : Int := first.toNat - second.toNat
      if c ≠ 0 then some c else memcmp len src1 src2
  | _ + 1, _, _ => none

/-- `js_string_memcmp`. -/
def jsStringMemcmp (p1 p2 : JSString) (len : Nat) : Option Int :=
  memcmp len p1.units p2.units

def JSString.len (p : JSString) : Nat :=
  p.units.length

/-- The hash that the structure of a string atom has. -/
def atomHashOf (string : JSString) (atomType : AtomType) : Nat :=
  (hashString string atomType.code &&& jsAtomHashMask).toNat

namespace AtomTable

/-- `0` ends chains and the list of free places. -/
def link (i : Nat) : Option Nat :=
  if i = 0 then none else some i

/-- `rt->atom_array[i]` and what it points to. -/
def read (rt : AtomTable) (i : Nat) : Option (Address × JSAtomStruct) := do
  match ← rt.atomArray[i]? with
  | .free _ => none
  | .atom p => return (p, ← rt.strings p)

/-- The link of a structure. -/
def next (entry : Address × JSAtomStruct) : Option Nat :=
  link entry.2.hashNext

def write (rt : AtomTable) (p : Address) (str : Option JSAtomStruct) : AtomTable :=
  { rt with strings := Function.update rt.strings p str }

/-- The index of a hash in the hash table. -/
def bucket (rt : AtomTable) (hash : Nat) : Nat :=
  hash &&& (rt.atomHash.length - 1)

/-- A loop along the chain of a hash. -/
def find (rt : AtomTable) (found : Nat → Address × JSAtomStruct → Bool) (hash : Nat) :
    Option (Option (Option Nat × Nat × (Address × JSAtomStruct))) := do
  let i ← rt.atomHash[rt.bucket hash]?
  search rt.read next found (rt.atomArray.length + 1) none (link i)

/-- A loop that asserts that it finds the structure at `p`. -/
def findStruct (rt : AtomTable) (p : Address) (hash : Nat) :
    Option (Option Nat × Nat) := do
  match ← rt.find (fun _ entry => entry.1 == p) hash with
  | none => none
  | some (before, i, _) => return (before, i)

/-- `js_get_atom_index`. -/
def jsGetAtomIndex (rt : AtomTable) (p : Address) : Option Nat := do
  let str ← rt.strings p
  if str.atomType = some .symbol then return str.hashNext
  let (_, i) ← rt.findStruct p str.hash
  return i

/-! ## The hash table -/

/-- The body of the loop of `JS_ResizeAtomHash`; `new_hash` is beside the table. -/
def relink (h : Nat) (state : AtomTable × List Nat) :
    Option (Option Nat × (AtomTable × List Nat)) := do
  let (rt, newHash) := state
  let (p, str) ← rt.read h
  let hashNext1 := str.hashNext
  let j := str.hash &&& (newHash.length - 1)
  let hashNext ← newHash[j]?
  return (link hashNext1, rt.write p (some { str with hashNext }), newHash.set j h)

/-- `JS_ResizeAtomHash`, and whether it could. -/
def jsResizeAtomHash (newHashSize : Nat) (malloc : Bool) (rt : AtomTable) :
    Option (Bool × AtomTable) := do
  guard (newHashSize &&& (newHashSize - 1) = 0)
  if !malloc then return (false, rt)
  let (rt, newHash) ← rehash (fun i state => state.1.atomHash[i]?.map link) relink
    (rt.atomArray.length + 1) (List.range rt.atomHash.length)
    (rt, List.replicate newHashSize 0)
  return (true, { rt with atomHash := newHash, atomCountResize := newHashSize * 2 })

/-! ## The array of atoms -/

/-- The new free places from `start` on. -/
def freeSlots (start newSize : Nat) : List AtomSlot :=
  (List.range' start (newSize - start)).map fun i => .free (if i = newSize - 1 then 0 else i + 1)

/-- `JS_ATOM_NULL` entry. -/
def nullAtom : JSAtomStruct where
  refCount := 1
  string := .str8 []
  hash := 0
  atomType := some .symbol
  hashNext := 0

/-- Allows new atom entries; the inner `none` is the jump to `fail`. -/
def grow (malloc : Mallocs) (rt : AtomTable) : Option (Option AtomTable) := do
  let start := rt.atomArray.length
  guard (start * 3 < 2 ^ 31)
  let newSize := max 211 (start * 3 / 2)
  if jsAtomMax < newSize then return none
  if !malloc.array then return none
  if start = 0 then
    match malloc.nullAtom with
    | none => return none
    | some p =>
        let rt := rt.write p (some nullAtom)
        return some { rt with
          atomCount := rt.atomCount + 1
          atomArray := .atom p :: freeSlots 1 newSize
          atomFreeIndex := 1 }
  return some { rt with
    atomArray := rt.atomArray ++ freeSlots start newSize
    atomFreeIndex := start }

/-- The index of a structure that is freed, which is taken out of its chain. -/
def unlink (p : Address) (str : JSAtomStruct) (rt : AtomTable) : Option (Nat × AtomTable) := do
  if str.atomType = some .symbol then return (str.hashNext, rt)
  let (before, i) ← rt.findStruct p str.hash
  match before with
  | none => return (i, { rt with atomHash := rt.atomHash.set (rt.bucket str.hash) str.hashNext })
  | some i0 =>
      let (p0, str0) ← rt.read i0
      return (i, rt.write p0 (some { str0 with hashNext := str.hashNext }))

/-- `JS_FreeAtomStruct`. -/
def jsFreeAtomStruct (p : Address) (rt : AtomTable) : Option AtomTable := do
  let str ← rt.strings p
  let (i, rt) ← unlink p str rt
  guard (i < rt.atomArray.length)
  let rt := { rt with
    atomArray := rt.atomArray.set i (.free rt.atomFreeIndex)
    atomFreeIndex := i
    atomCount := rt.atomCount - 1 }
  guard ((0 : Int) ≤ rt.atomCount)
  return rt.write p none

/-- `js_free_string`. -/
def jsFreeString (p : Address) (rt : AtomTable) : Option AtomTable := do
  let str ← rt.strings p
  let rt := rt.write p (some { str with refCount := str.refCount - 1 })
  if str.refCount - 1 ≤ 0 then
    if str.atomType.isSome then rt.jsFreeAtomStruct p else return rt.write p none
  else return rt

/-! ## New atoms -/

/-- A place and a structure for a new atom. -/
def enter (p : Address) (h : Nat) (atomType : AtomType) (malloc : Mallocs) (rt : AtomTable) :
    Option (JSAtom × AtomTable) := do
  let h1 := rt.bucket h
  let i := rt.atomFreeIndex
  match ← rt.atomArray[i]? with
  | .atom _ => none
  | .free atomFreeIndex =>
      let str ← rt.strings p
      let rt := { rt with
        atomFreeIndex
        atomArray := rt.atomArray.set i (.atom p)
        atomCount := rt.atomCount + 1 }
      if atomType = .symbol then
        return (i, rt.write p (some { str with hash := h, hashNext := i, atomType }))
      let hashNext ← rt.atomHash[h1]?
      let rt := rt.write p (some { str with hash := h, hashNext, atomType })
      let rt := { rt with atomHash := rt.atomHash.set h1 i }
      if rt.atomCountResize ≤ rt.atomCount then
        let (_, rt) ← rt.jsResizeAtomHash (rt.atomHash.length * 2) malloc.hash
        return (i, rt)
      return (i, rt)

/-- The structure of a new atom; the inner `none` is the jump to `fail`. -/
def structFor (str : Option Address) (malloc : Mallocs) (rt : AtomTable) :
    Option (Option (Address × AtomTable)) := do
  match str with
  | some str =>
      let held ← rt.strings str
      if held.atomType = none then return some (str, rt)
      match malloc.atom with
      | none => return none
      | some p =>
          let rt := rt.write p (some ⟨1, held.string, 0, none, 0⟩)
          return some (p, ← rt.jsFreeString str)
  | none =>
      match malloc.atom with
      | none => return none
      | some p => return some (p, rt.write p (some ⟨1, .str16 [], 0, none, 0⟩))

/-- Frees `str` and gives `JS_ATOM_NULL`. -/
def fail (str : Option Address) (rt : AtomTable) : Option (JSAtom × AtomTable) := do
  match str with
  | none => return (jsAtomNull, rt)
  | some str => return (jsAtomNull, ← rt.jsFreeString str)

/-- A free place, with new ones if there is none. -/
def room (malloc : Mallocs) (rt : AtomTable) : Option (Option AtomTable) :=
  if rt.atomFreeIndex = 0 then rt.grow malloc else some (some rt)

/-- What `__JS_NewAtom` does when there is no such atom. -/
def makeAtom (str : Option Address) (h : Nat) (atomType : AtomType) (malloc : Mallocs)
    (rt : AtomTable) : Option (JSAtom × AtomTable) := do
  match ← rt.room malloc with
  | none => rt.fail str
  | some rt =>
      match ← rt.structFor str malloc with
      | none => rt.fail str
      | some (p, rt) => rt.enter p h atomType malloc

/-- The test of `__JS_NewAtom` for an atom with the chars of a string. -/
def isAtomOf (h : Nat) (atomType : AtomType) (string : JSString)
    (entry : Address × JSAtomStruct) : Bool :=
  entry.2.hash = h && entry.2.atomType = some atomType && entry.2.string.len = string.len &&
    jsStringMemcmp entry.2.string string string.len = some 0

/-- `__JS_NewAtom` of a string and a type below `JS_ATOM_TYPE_SYMBOL`. -/
def internAtom (str : Address) (atomType : AtomType) (malloc : Mallocs) (rt : AtomTable) :
    Option (JSAtom × AtomTable) := do
  let held ← rt.strings str
  if held.atomType = some atomType then
    let i ← rt.jsGetAtomIndex str
    if atomIsConst i then
      return (i, rt.write str (some { held with refCount := held.refCount - 1 }))
    return (i, rt)
  let h := atomHashOf held.string atomType
  match ← rt.find (fun _ => isAtomOf h atomType held.string) h with
  | some (_, i, p, entry) =>
      let rt := if atomIsConst i then rt
        else rt.write p (some { entry with refCount := entry.refCount + 1 })
      return (i, ← rt.jsFreeString str)
  | none => rt.makeAtom (some str) h atomType malloc

/-- `__JS_NewAtom`. -/
def newAtom (str : Option Address) (atomType : AtomType) (malloc : Mallocs) (rt : AtomTable) :
    Option (JSAtom × AtomTable) :=
  match atomType with
  | .symbol => rt.makeAtom str jsAtomHashSymbol .symbol malloc
  | .privateSymbol => rt.makeAtom str jsAtomHashPrivate .symbol malloc
  | .string | .globalSymbol => do rt.internAtom (← str) atomType malloc

/-! ## References to atoms -/

/-- `JS_AtomGetKind`. -/
def jsAtomGetKind (v : JSAtom) (rt : AtomTable) : Option AtomKind := do
  if atomIsTaggedInt v then return .string
  let (_, p) ← rt.read v
  match p.atomType with
  | some .string => return .string
  | some .globalSymbol => return .symbol
  | some .symbol =>
      if p.hash = jsAtomHashSymbol then return .symbol
      else if p.hash = jsAtomHashPrivate then return .privateSymbol
      else none
  | _ => none

/-- `JS_DupAtom`. -/
def jsDupAtom (v : JSAtom) (rt : AtomTable) : Option (JSAtom × AtomTable) := do
  if atomIsConst v then return (v, rt)
  let (p, str) ← rt.read v
  return (v, rt.write p (some { str with refCount := str.refCount + 1 }))

/-- `JS_FreeAtom`. -/
def jsFreeAtom (i : JSAtom) (rt : AtomTable) : Option AtomTable := do
  if atomIsConst i then return rt
  let (p, str) ← rt.read i
  let rt := rt.write p (some { str with refCount := str.refCount - 1 })
  if 0 < str.refCount - 1 then return rt
  rt.jsFreeAtomStruct p

/-- `JS_DupValue` of a string. -/
def jsDupString (p : Address) (rt : AtomTable) : Option AtomTable := do
  let str ← rt.strings p
  return rt.write p (some { str with refCount := str.refCount + 1 })

/-- `js_alloc_string` at `p`, with its chars. -/
def jsAllocString (p : Address) (string : JSString) (rt : AtomTable) : AtomTable :=
  rt.write p (some ⟨1, string, 0, none, 0⟩)

/-! ## Atoms and strings -/

/-- `JS_NewAtomStr`. -/
def jsNewAtomStr (p : Address) (malloc : Mallocs) (rt : AtomTable) :
    Option (JSAtom × AtomTable) := do
  let str ← rt.strings p
  match isNumString str.string with
  | some n =>
      if n ≤ jsAtomMaxInt then return (atomFromUInt32 n, ← rt.jsFreeString p)
      rt.newAtom (some p) .string malloc
  | none => rt.newAtom (some p) .string malloc

/-- `__JS_FindAtom`; its result is `JS_ATOM_NULL` where there is none. -/
def findAtom (str : Bytes) (rt : AtomTable) : Option (JSAtom × AtomTable) := do
  let h := (hashString8 str AtomType.string.code &&& jsAtomHashMask).toNat
  let isAtom := fun (_ : Nat) (entry : Address × JSAtomStruct) =>
    entry.2.hash = h && entry.2.atomType = some .string && entry.2.string = .str8 str
  match ← rt.find (fun i entry => isAtom i entry) h with
  | some (_, i, p, entry) =>
      if atomIsConst i then return (i, rt)
      return (i, rt.write p (some { entry with refCount := entry.refCount + 1 }))
  | none => return (jsAtomNull, rt)

/-- `JS_NewStringLen`: the string, or `none` for an exception. -/
def jsNewStringLen (buf : Bytes) (malloc : Mallocs) (rt : AtomTable) :
    Option Address × AtomTable :=
  match newStringLen buf, malloc.string with
  | some string, some p => (some p, rt.jsAllocString p string)
  | _, _ => (none, rt)

/-- `JS_NewAtomLen`. -/
def jsNewAtomLen (str : Bytes) (malloc : Mallocs) (rt : AtomTable) :
    Option (JSAtom × AtomTable) := do
  let found := if str.isEmpty || !isDigit (str.headD 0) then rt.findAtom str
    else some (jsAtomNull, rt)
  let (atom, rt) ← found
  if atom ≠ jsAtomNull then return (atom, rt)
  match rt.jsNewStringLen str malloc with
  | (none, rt) => return (jsAtomNull, rt)
  | (some p, rt) => rt.jsNewAtomStr p malloc

/-- `JS_NewAtomUInt32`. -/
def jsNewAtomUInt32 (n : Nat) (malloc : Mallocs) (rt : AtomTable) : Option (JSAtom × AtomTable) :=
  if n ≤ jsAtomMaxInt then some (atomFromUInt32 n, rt)
  else
    match rt.jsNewStringLen (printUInt n) malloc with
    | (none, rt) => some (jsAtomNull, rt)
    | (some p, rt) => rt.newAtom (some p) .string malloc

/-- `JS_AtomIsArrayIndex`: the index, or `none` for an atom that is none. -/
def jsAtomIsArrayIndex (atom : JSAtom) (rt : AtomTable) : Option (Option Nat) := do
  if atomIsTaggedInt atom then return some (atomToUInt32 atom)
  let (_, str) ← rt.read atom
  if str.atomType = some .string then
    return (isNumString str.string).filter (· ≠ 2 ^ 32 - 1)
  return none

/-- `JS_AtomToString`: a string value, or `none` for an exception. -/
def jsAtomToString (atom : JSAtom) (malloc : Mallocs) (rt : AtomTable) :
    Option (Option Address × AtomTable) := do
  if atomIsTaggedInt atom then
    return rt.jsNewStringLen (printUInt (atomToUInt32 atom)) malloc
  let (p, str) ← rt.read atom
  let described := if str.atomType ≠ some .string && str.string = .str16 [] then
      (rt.read jsAtomEmptyString).map Prod.fst
    else some p
  let p ← described
  return (some p, ← rt.jsDupString p)

/-! ## The first atoms -/

/-- The chars of a literal of the source. -/
def initString (str : String) : JSString :=
  .str8 (str.toList.map fun c => .ofNat c.toNat)

/-- `__JS_NewAtomInit`; the string is allocated at `p`. -/
def newAtomInit (p : Address) (str : String) (atomType : AtomType) (malloc : Mallocs)
    (rt : AtomTable) : Option (JSAtom × AtomTable) :=
  (rt.jsAllocString p (initString str)).newAtom (some p) atomType malloc

/-- The type of the atom with a given index. -/
def initType (i : Nat) : AtomType :=
  if i = jsAtomPrivateBrand then .privateSymbol
  else if jsAtomSymbolToPrimitive ≤ i then .symbol
  else .string

/-- The loop of `JS_InitAtoms`; the inner `none` is its error. -/
def initAtoms (mallocs : Nat → Mallocs) :
    Nat → List String → AtomTable → Option (Option AtomTable)
  | _, [], rt => some (some rt)
  | i, p :: rest, rt =>
      match (mallocs i).string with
      | none => some none
      | some str => do
          let (atom, rt) ← rt.newAtomInit str p (initType i) (mallocs i)
          if atom = jsAtomNull then return none
          initAtoms mallocs (i + 1) rest rt

/-- `JS_InitAtoms`. -/
def jsInitAtoms (mallocs : Nat → Mallocs) (strings : Address → Option JSAtomStruct) :
    Option (Option AtomTable) := do
  let rt : AtomTable := ⟨[], 0, 0, [], 0, strings⟩
  let (resized, rt) ← rt.jsResizeAtomHash 256 (mallocs 0).hash
  if !resized then return none
  initAtoms mallocs 1 jsAtomInit rt

end AtomTable

end Jib.QuickJS
