import Mathlib.Data.List.Basic

/-!
# The global scope of a JavaScript state

An identifier of a script denotes a lexical binding if there is one, and
otherwise a property that the global object has itself or inherits.  Reading
the property by its name sees the second half of this only.
-/

/-- A property is a value or a getter, which may be missing. -/
inductive Property (Value : Type)
  | data (value : Value)
  | accessor (getter : Option Value)

/-- The global scope of the states of an engine.  `lexical` gives the bindings
of `let`, `const` and `class`, uninitialised ones as `some none`; `objects`
gives the own properties of the global object and of its prototypes, in that
order. -/
structure GlobalScope (Name State Value : Type) where
  lexical : Name → State → Option (Option Value)
  objects : State → List (Name → Option (Property Value))
  callGetter : Value → State → Except Value Value × State
  undefined : Value
  referenceError : Name → State → Value

namespace GlobalScope

variable {Name State Value : Type} (scope : GlobalScope Name State Value)

/-- The first property of a name along the prototypes. -/
def findProperty (name : Name) (state : State) : Option (Property Value) :=
  (scope.objects state).findSome? fun properties => properties name

def hasProperty (name : Name) (state : State) : Bool :=
  (scope.findProperty name state).isSome

/-- Read a property of the global object. -/
def get (name : Name) (state : State) : Except Value Value × State :=
  match scope.findProperty name state with
  | none => (.ok scope.undefined, state)
  | some (.data value) => (.ok value, state)
  | some (.accessor none) => (.ok scope.undefined, state)
  | some (.accessor (some getter)) => scope.callGetter getter state

/-- Reading the property runs a getter. -/
def runsGetter (name : Name) (state : State) : Bool :=
  match scope.findProperty name state with
  | some (.accessor (some _)) => true
  | _ => false

/-- The value of an identifier: the lexical binding if there is one, else the
property if there is one. -/
def resolveBinding (name : Name) (state : State) : Except Value Value × State :=
  match scope.lexical name state with
  | some (some value) => (.ok value, state)
  | some none => (.error (scope.referenceError name state), state)
  | none =>
      if scope.hasProperty name state then scope.get name state
      else (.error (scope.referenceError name state), state)

variable {scope} {name : Name} {state : State}

theorem get_of_not_runsGetter (noGetter : scope.runsGetter name state = false) :
    (scope.get name state).2 = state := by
  unfold runsGetter at noGetter
  unfold get
  split at noGetter
  · cases noGetter
  · rename_i noAccessor
    split
    · rfl
    · rfl
    · rfl
    · rename_i found
      exact (noAccessor _ found).elim

/-- Only a property that exists has a value other than `undefined`. -/
theorem hasProperty_of_get {value : Value} (read : (scope.get name state).1 = .ok value)
    (isDefined : value ≠ scope.undefined) : scope.hasProperty name state = true := by
  unfold hasProperty
  cases found : scope.findProperty name state with
  | none =>
      rw [get, found] at read
      exact (isDefined (Except.ok.inj read).symm).elim
  | some property => rfl

theorem resolveBinding_of_unshadowed {value : Value}
    (unshadowed : scope.lexical name state = none)
    (read : (scope.get name state).1 = .ok value)
    (isDefined : value ≠ scope.undefined) :
    scope.resolveBinding name state = scope.get name state := by
  rw [resolveBinding, unshadowed]
  exact if_pos (hasProperty_of_get read isDefined)

theorem resolveBinding_of_shadowed {binding : Option Value}
    (shadowed : scope.lexical name state = some binding) :
    (scope.resolveBinding name state).1.toOption = binding ∧
      (scope.resolveBinding name state).2 = state := by
  rw [resolveBinding, shadowed]
  cases binding <;> exact ⟨rfl, rfl⟩

end GlobalScope
