import Jib.HitchText
import Jib.ProgramContracts

/-!
# What an operation tells of a failure

A script, function or setter that an operation runs may throw.  The operation
tells by its reply that something was thrown, and by the `exception` field of
the `Jib` what it was.
-/

namespace Jib

open CommandProgram Program

/-- The last thing thrown, with the text that its string conversion gives, and
the `exception` field.  A script that runs without throwing clears `thrown`. -/
structure Failure (Value : Type) where
  thrown : Option (Value × Option Bytes)
  exception : Option Bytes

namespace Failure

variable {Value : Type}

/-- At the start of an operation nothing has been thrown. -/
def enter (failure : Failure Value) : Failure Value :=
  { failure with thrown := none }

@[simp]
theorem thrown_enter (failure : Failure Value) : failure.enter.thrown = none :=
  rfl

@[simp]
theorem exception_enter (failure : Failure Value) :
    failure.enter.exception = failure.exception :=
  rfl

/-- A script, function or setter has run; `threw` says how it ended. -/
def Ran (before after : Failure Value) (threw : Bool) : Prop :=
  after.exception = before.exception ∧ after.thrown.isSome = threw

/-- The field holds the text of what was thrown, where that has a text. -/
def Described (thrown : Option (Value × Option Bytes)) (exception : Option Bytes) : Prop :=
  ∀ value text, thrown = some (value, some text) → exception = some text

@[simp]
theorem described_none (exception : Option Bytes) :
    Described (none : Option (Value × Option Bytes)) exception := by
  simp [Described]

end Failure

/-- A failure is always signalled by `nil`, and operations whose reply only
tells of success give `nil` for nothing else. -/
structure SignalsFailure (threw isNil tellsSuccess : Bool) : Prop where
  isNil_of_threw : threw = true → isNil = true
  threw_of_isNil : tellsSuccess = true → isNil = true → threw = true

/-- Where nothing is thrown and the reply is not `nil`, nothing is to be
signalled. -/
theorem SignalsFailure.of_success {isNil tellsSuccess : Bool}
    (success : tellsSuccess = true → isNil = false) :
    SignalsFailure false isNil tellsSuccess where
  isNil_of_threw := nofun
  threw_of_isNil := fun tells isNil => by simp [success tells] at isNil

/-- The field tells what was thrown, and a lookup that throws nothing leaves
nothing in it. -/
structure TellsException {Value : Type} (isSubscript : Bool)
    (thrown : Option (Value × Option Bytes)) (exception : Option Bytes) : Prop where
  described : Failure.Described thrown exception
  cleared : isSubscript = true → thrown = none → exception = none

end Jib
