import Mathlib.Logic.Function.Basic

/-!
# Setting a property in QuickJS

`JS_SetPropertyInternal` where the object is the receiver and is the global
object, which has no class of its own: the property of the object itself, the
walk along the prototypes, and the creation of a property.  Where a setter, a
method of a class or a typed array takes the value, other code decides.
-/

namespace Jib.QuickJS

/-- A property of an object: its `JS_PROP_TMASK` bits and, for the kinds that
have a value, `JS_PROP_WRITABLE`.  A property that is initialised on its first
use becomes `undefined` when that fails. -/
inductive Slot (Value : Type)
  | normal (value : Value) (writable : Bool)
  | getSet (setter : Option Value)
  | varRef (value : Value)
  | autoInit (value : Value) (fails : Bool) (writable : Bool)

/-- What an exotic class does with a property. -/
inductive Exotic (Name Value : Type)
  | none
  | fastArray (count : Nat) (typed : Bool)
  | setProperty
  | getOwnProperty (own : Name → Option (Slot Value))

/-- An object: its own properties, and whether others can be added. -/
structure PropertyObject (Name Value : Type) where
  own : Name → Option (Slot Value)
  extensible : Bool

/-- An object along the prototypes. -/
structure Prototype (Name Value : Type) where
  own : Name → Option (Slot Value)
  exotic : Exotic Name Value

/-- `__JS_AtomIsTaggedInt` with the integer, and `JS_AtomIsNumericIndex`. -/
structure NameRules (Name : Type) where
  taggedInt? : Name → Option Nat
  isNumericIndex : Name → Bool

/-- The value of a property, once it is initialised. -/
def Slot.value? {Value : Type} : Slot Value → Option Value
  | .normal value _ => some value
  | .getSet _ => none
  | .varRef value => some value
  | .autoInit value _ _ => some value

/-- Where the walk along the prototypes ends. -/
inductive Walk
  | absent
  | refused
  | elsewhere
  deriving DecidableEq

variable {Name Value : Type}

/-- An object along the prototypes lets the walk go on, or ends it. -/
def Slot.walk : Slot Value → Option Walk
  | .normal _ true => none
  | .normal _ false => some .refused
  | .getSet (some _) => some .elsewhere
  | .getSet none => some .refused
  | .varRef _ => none
  | .autoInit _ true _ => some .refused
  | .autoInit _ false true => none
  | .autoInit _ false false => some .refused

/-- The class of an object along the prototypes lets the walk go on, or ends it. -/
def Exotic.walk (rules : NameRules Name) (name : Name) : Exotic Name Value → Option Walk
  | .none => .none
  | .fastArray count typed =>
      match rules.taggedInt? name with
      | some index =>
          if index < count then some .absent else if typed then some .elsewhere else .none
      | .none => if typed ∧ rules.isNumericIndex name = true then some .elsewhere else .none
  | .setProperty => some .elsewhere
  | .getOwnProperty own =>
      match own name with
      | .none => .none
      | some slot => slot.walk <|> some .absent

/-- The walk along the prototypes. -/
def walk (rules : NameRules Name) (name : Name) : List (Prototype Name Value) → Walk
  | [] => .absent
  | object :: rest =>
      match (object.own name).bind Slot.walk with
      | some ended => ended
      | none =>
          match object.exotic.walk rules name with
          | some ended => ended
          | none => walk rules name rest

variable [DecidableEq Name]

namespace PropertyObject

/-- Write the slot of a name. -/
def write (object : PropertyObject Name Value) (name : Name) (slot : Slot Value) :
    PropertyObject Name Value :=
  { object with own := Function.update object.own name (some slot) }

/-- The value of an own property. -/
def value? (object : PropertyObject Name Value) (name : Name) : Option Value :=
  (object.own name).bind Slot.value?

/-- `JS_SetPropertyInternal` with `JS_PROP_THROW`: whether it returns `TRUE`
rather than an exception, and the global object then.  `none` is where other
code decides. -/
def setProperty (rules : NameRules Name) (prototypes : List (Prototype Name Value))
    (object : PropertyObject Name Value) (name : Name) (value : Value) :
    Option (Bool × PropertyObject Name Value) :=
  match object.own name with
  | some (.normal _ true) => some (true, object.write name (.normal value true))
  | some (.normal _ false) => some (false, object)
  | some (.getSet (some _)) => none
  | some (.getSet none) => some (false, object)
  | some (.varRef _) => some (true, object.write name (.varRef value))
  | some (.autoInit made true writable) =>
      some (false, object.write name (.normal made writable))
  | some (.autoInit _ false true) => some (true, object.write name (.normal value true))
  | some (.autoInit made false false) =>
      some (false, object.write name (.normal made false))
  | none =>
      match walk rules name prototypes with
      | .absent =>
          if object.extensible then some (true, object.write name (.normal value true))
          else some (false, object)
      | .refused => some (false, object)
      | .elsewhere => none

/-- The property can be set: it is writable, or it can be added. -/
def CanSet (rules : NameRules Name) (prototypes : List (Prototype Name Value))
    (object : PropertyObject Name Value) (name : Name) : Prop :=
  match object.own name with
  | some (.normal _ writable) => writable = true
  | some (.getSet setter) => setter.isSome = true
  | some (.varRef _) => True
  | some (.autoInit _ fails writable) => fails = false ∧ writable = true
  | none => walk rules name prototypes ≠ .refused ∧ object.extensible = true

/-- A setter, a method of a class or a typed array takes the value. -/
def TakenElsewhere (rules : NameRules Name) (prototypes : List (Prototype Name Value))
    (object : PropertyObject Name Value) (name : Name) : Prop :=
  match object.own name with
  | some (.getSet setter) => setter.isSome = true
  | some _ => False
  | none => walk rules name prototypes = .elsewhere

variable {object after : PropertyObject Name Value} {name : Name} {value : Value}
  {rules : NameRules Name} {prototypes : List (Prototype Name Value)}

@[simp]
theorem value?_write (object : PropertyObject Name Value) (name : Name) (slot : Slot Value) :
    (object.write name slot).value? name = slot.value? := by
  simp [value?, write]

theorem value?_of_setProperty
    (done : object.setProperty rules prototypes name value = some (true, after)) :
    after.value? name = some value := by
  unfold setProperty at done
  split at done <;> try cases done
  · exact value?_write object name _
  · exact value?_write object name _
  · exact value?_write object name _
  · split at done
    · split at done
      · cases done
        exact value?_write object name _
      · cases done
    · cases done
    · cases done

theorem value?_of_setProperty_refused
    (refused : object.setProperty rules prototypes name value = some (false, after)) :
    after.value? name = object.value? name := by
  unfold setProperty at refused
  split at refused <;> try cases refused
  · rfl
  · rfl
  · rename_i isOwn
    rw [value?_write, value?, isOwn]
    rfl
  · rename_i isOwn
    rw [value?_write, value?, isOwn]
    rfl
  · split at refused
    · split at refused
      · cases refused
      · cases refused
        rfl
    · cases refused
      rfl
    · cases refused

/-- Exactly a property that can be set is set, unless other code decides. -/
theorem canSet_of_setProperty {ok : Bool}
    (done : object.setProperty rules prototypes name value = some (ok, after)) :
    object.CanSet rules prototypes name ↔ ok = true := by
  unfold setProperty at done
  unfold CanSet
  split at done <;> rename_i isOwn <;> rw [isOwn] <;> try (cases done <;> simp)
  split at done
  · rename_i absent
    split at done <;> rename_i extensible <;> cases done <;> simp [absent, extensible]
  · rename_i refused
    cases done
    simp [refused]
  · cases done

theorem isSome_setProperty (stays : ¬ object.TakenElsewhere rules prototypes name)
    (value : Value) : (object.setProperty rules prototypes name value).isSome = true := by
  unfold setProperty
  unfold TakenElsewhere at stays
  split <;> rename_i isOwn <;> rw [isOwn] at stays <;> try rfl
  · exact (stays rfl).elim
  · split
    · split <;> rfl
    · rfl
    · rename_i elsewhere
      exact (stays elsewhere).elim

end PropertyObject

end Jib.QuickJS
