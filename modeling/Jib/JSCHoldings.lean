import Jib.JSCLifetimes
import Jib.JSCPublicOperations
import Jib.ResourceLedgers

/-!
# What JavaScriptCore functions hold

A `JibFunction` has a class of its own, protects the function object that it
wraps, and retains its body if it has one.  What it holds it gives back when it
is deallocated, except that the object of a `Jib` that has been released, or
that is going away, stays as it is.
-/

namespace Jib.JSC

open CommandProgram Program ResourceLedgers

inductive Resource
  | jsClass (reference : JSClassRef)
  | body (address : Address)
  | protection (object : JSObjectRef)
  deriving DecidableEq

def bodyHolding : AnyPtr → Holdings Resource
  | some address => Pi.single (.body address) 1
  | none => 0

/-- Protecting `NULL` does nothing. -/
def protectionHolding : Option JSValueRef → Holdings Resource
  | some object => Pi.single (.protection object) 1
  | none => 0

/-- What a function holds of the engine; its object only if it is to be
unprotected. -/
def JibFunction.wrapping (protecting : Bool) (function : JibFunction) : Holdings Resource :=
  (if protecting then protectionHolding function.objectRef else 0) +
    Pi.single (.jsClass function.jsClass) 1

/-- What a function holds. -/
def JibFunction.holding (protecting : Bool) (function : JibFunction) : Holdings Resource :=
  function.wrapping protecting + bodyHolding function.bodyPtr

/-- The commands that set fields of a `Jib` other than `exception`. -/
def Command.setsFields : Command → Bool
  | .appendCustomFunction _ => true
  | .clearCustomFunctions => true
  | .setPrintFn _ => true
  | .setReleased => true
  | _ => false

/-- What is created, protected and retained, and what is released again, in an
operation that finds `released` and does or does not load its `Jib`. -/
def holdings (released loaded : Bool) : Ledger interface Resource where
  takes
    | .makeReleasedClass bodyPtr => bodyHolding bodyPtr
    | .jsClassRelease jsClass => Pi.single (.jsClass jsClass) 1
    | .jsValueUnprotect _ value => protectionHolding value
    | _ => 0
  gives
    | .makeRetainedPtr _, bodyPtr => bodyHolding bodyPtr
    | .jsClassCreate, jsClass => Pi.single (.jsClass jsClass) 1
    | .jsValueProtect _ value, _ => protectionHolding value
    | _, _ => 0
  Answers
    | .readReleased, answer => answer = released
    | .loadJib _, jib => jib.isSome = loaded
    | _, _ => True
  Allowed command := command.setsFields = false

variable {D α β : Type} {released loaded : Bool} {held : Holdings Resource}
  {post : α → Holdings Resource → Prop}

/-! ## Rules -/

/-- A command that gives nothing takes its share and leaves the rest. -/
theorem holdings_take {command : Command} {next : Answer command → Operation α}
    (allowed : command.setsFields = false) (rest : Holdings Resource)
    (split : held = rest + (holdings released loaded).takes command)
    (givesNothing : ∀ answer, (holdings released loaded).gives command answer = 0)
    (balances : ∀ answer, (holdings released loaded).Answers command answer →
      (holdings released loaded).Balances rest post (next answer)) :
    (holdings released loaded).Balances held post (.call command next) := by
  apply balances_call allowed rest split
  intro answer answers
  rw [givesNothing, add_zero]
  exact balances answer answers

/-- A command that takes nothing adds what it gives. -/
theorem holdings_give {command : Command} {next : Answer command → Operation α}
    (allowed : command.setsFields = false)
    (takesNothing : (holdings released loaded).takes command = 0)
    (balances : ∀ answer, (holdings released loaded).Answers command answer →
      (holdings released loaded).Balances (held + (holdings released loaded).gives command answer)
        post (next answer)) :
    (holdings released loaded).Balances held post (.call command next) := by
  apply balances_call allowed held _ balances
  rw [takesNothing, add_zero]

theorem holdings_query {command : Command} {next : Answer command → Operation α}
    (allowed : command.setsFields = false)
    (takesNothing : (holdings released loaded).takes command = 0)
    (givesNothing : ∀ answer, (holdings released loaded).gives command answer = 0)
    (balances : ∀ answer, (holdings released loaded).Answers command answer →
      (holdings released loaded).Balances held post (next answer)) :
    (holdings released loaded).Balances held post (.call command next) := by
  apply holdings_take allowed held _ givesNothing balances
  rw [takesNothing, add_zero]

/-- Neutral programs leave what is in hand. -/
theorem holdings_neutral {program : Operation α} (neutral : Neutral program) :
    (holdings released loaded).Balances held (fun _ left => left = held) program := by
  induction program with
  | done value => exact balances_done rfl
  | acquire next => exact neutral.elim
  | release next => exact neutral.elim
  | call command next ih =>
      have isNeutral : command.isNeutral = true := neutral.1
      apply holdings_query
      · cases command <;> first | rfl | cases isNeutral
      · cases command <;> first | rfl | cases isNeutral
      · intro answer
        cases command <;> first | rfl | cases isNeutral
      · exact fun answer _ => ih answer (neutral.2 answer)

/-- An operation that is locked, unless the `Jib` has been released. -/
theorem holdings_unlessReleased {absent : α} {body : Operation α}
    (atOnce : released = true → post absent held)
    (balances : released = false → (holdings released loaded).Balances held post body) :
    (holdings released loaded).Balances held post (unlessReleased absent (locked body)) := by
  apply holdings_query rfl rfl (fun _ => rfl)
  intro answer isReleased
  obtain rfl : answer = released := isReleased
  cases answer with
  | true => exact balances_done (atOnce rfl)
  | false => exact (balances rfl).locked

/-! ## Functions -/

/-- The end of `deinit`: the object is unprotected if that is still possible. -/
theorem holdings_unprotect (function : JibFunction) :
    (holdings released loaded).Balances
      (if loaded && !released then protectionHolding function.objectRef else 0) Spent
      (loadJib function >>= fun jib => match jib with
        | some jib => do
            if ← readReleased then return ()
            else jsValueUnprotect jib.context function.objectRef
        | none => return ()) := by
  apply holdings_query rfl rfl fun _ => rfl
  intro jib isLoaded
  cases jib with
  | none =>
      obtain rfl : false = loaded := isLoaded
      exact balances_done rfl
  | some jib =>
      obtain rfl : true = loaded := isLoaded
      apply holdings_query rfl rfl fun _ => rfl
      intro answer isReleased
      obtain rfl : answer = released := isReleased
      cases answer with
      | true => exact balances_done rfl
      | false =>
          apply holdings_take rfl 0 (zero_add _).symm fun _ => rfl
          intro _ _
          exact balances_done rfl

theorem holdings_deinit (function : JibFunction) :
    (holdings released loaded).Balances (function.holding (loaded && !released)) Spent
      function.deinit := by
  apply holdings_take rfl (function.wrapping (loaded && !released)) rfl fun _ => rfl
  intro _ _
  apply holdings_take rfl _ rfl fun _ => rfl
  intro _ _
  exact holdings_unprotect function

theorem holdings_deinits (functions : List JibFunction) :
    (holdings released loaded).Balances
      (functions.map (JibFunction.holding (loaded && !released))).sum Spent
      (forEach JibFunction.deinit functions) :=
  balances_forEach holdings_deinit functions

/-- What a function that has been made or looked up holds, if there is one. -/
def optionHolding (count : JibFunction → Holdings Resource) :
    Option JibFunction → Holdings Resource
  | some function => count function
  | none => 0

/-- A function that could not be made gives everything back. -/
theorem holdings_makeJibFunction (jib : JibFields) (name : HalfHitch) (body : JibFunctionBody) :
    (holdings false true).Balances 0 (Yielding (optionHolding (JibFunction.holding true)))
      (makeJibFunction jib name body) := by
  apply holdings_give rfl rfl
  intro jsClass _
  apply holdings_give rfl rfl
  intro bodyPtr _
  change (holdings false true).Balances (0 + Pi.single (.jsClass jsClass) 1 + bodyHolding bodyPtr) _
    (createJSString name >>= _)
  rw [zero_add]
  apply (holdings_neutral (light_createJSString name).neutral).seq
  rintro functionName _ rfl
  apply holdings_query rfl rfl fun _ => rfl
  intro objectRef _
  cases objectRef with
  | some objectRef =>
      apply holdings_query rfl rfl fun _ => rfl
      intro bodyObject _
      apply holdings_query rfl rfl fun _ => rfl
      intro exception _
      apply holdings_give rfl rfl
      intro _ _
      apply holdings_query rfl rfl fun _ => rfl
      intro _ _
      apply balances_done
      change _ + protectionHolding (some objectRef) = _
      rw [add_comm, ← add_assoc]
      rfl
  | none =>
      apply holdings_query rfl rfl fun _ => rfl
      intro _ _
      have unmade : (JibFunction.mk jsClass none bodyPtr).holding true =
          Pi.single (.jsClass jsClass) 1 + bodyHolding bodyPtr := by
        rw [JibFunction.holding, JibFunction.wrapping, if_pos rfl]
        exact congrArg (· + _) (zero_add _)
      rw [← unmade]
      apply (holdings_deinit ⟨jsClass, none, bodyPtr⟩).seq
      rintro _ _ rfl
      exact balances_done rfl

/-- A function that is looked up has no body to give back. -/
theorem holdings_jsValueToFunction (context : JSGlobalContextRef) (value : Option JSValueRef) :
    (holdings released loaded).Balances 0 (Yielding (optionHolding (JibFunction.wrapping true)))
      (jsValueToFunction context value) := by
  cases value with
  | none => exact balances_done rfl
  | some value =>
      apply holdings_query rfl rfl fun _ => rfl
      intro isUndefined _
      cases isUndefined with
      | true => exact balances_done rfl
      | false =>
          apply holdings_query rfl rfl fun _ => rfl
          intro isFunction _
          cases isFunction with
          | false => exact balances_done rfl
          | true =>
              apply holdings_query rfl rfl fun _ => rfl
              intro bodyPtr _
              apply holdings_give rfl rfl
              intro _ _
              apply holdings_give rfl rfl
              intro jsClass _
              apply balances_done
              change 0 + protectionHolding (some value) + _ = _
              rw [zero_add]
              rfl

/-! ## Operations -/

variable (jib : JibFields)

/-- What the functions of a reply hold. -/
def Reply.wrapping (reply : Reply D) : Holdings Resource :=
  (reply.functions.map (JibFunction.wrapping true)).sum

/-- What an operation gives is all that it leaves. -/
theorem holdings_reply {program : Operation α} {count : α → Holdings Resource}
    {wrap : α → Reply D}
    (balances : (holdings released loaded).Balances 0 (Yielding count) program)
    (counts : ∀ value, count value = (wrap value).wrapping) :
    (holdings released loaded).Balances 0 (Yielding Reply.wrapping)
      (program >>= fun value => .done (wrap value)) := by
  apply balances.seq
  rintro value _ rfl
  exact balances_done (counts value)

theorem holdings_unlessReleased_neutral {absent : α} {body : Operation α}
    (neutral : Neutral body) :
    (holdings released loaded).Balances 0 Spent (unlessReleased absent (locked body)) :=
  holdings_unlessReleased (fun _ => rfl) fun _ => holdings_neutral neutral

/-- How a reader works: a conversion that leaves what the functions of its reply
hold. -/
structure Wrapping (reader : Reader D) (α : Type) (absent : α)
    (convert : Option JSValueRef → Operation α) (wrap : α → Reply D) : Prop where
  balances : ∀ released loaded value,
    (holdings released loaded).Balances 0 (Yielding fun converted => (wrap converted).wrapping)
      (convert value)
  absent_wrapping : (wrap absent).wrapping = 0
  subscript : ∀ exec,
    reader.subscript jib exec =
      (typedSubscript jib absent convert exec >>= fun value => .done (wrap value))
  call : ∀ function arguments,
    reader.call jib function arguments =
      (typedCall jib convert function arguments >>= fun value => .done (wrap value))

theorem Reader.wrapping (reader : Reader D) :
    ∃ α absent convert wrap, Wrapping jib reader α absent convert wrap := by
  have light : ∀ {α : Type} {convert : Option JSValueRef → Operation α},
      (∀ value, LooksOnly (convert value)) → ∀ released loaded value,
        (holdings released loaded).Balances 0 Spent (convert value) :=
    fun looksOnly _ _ value => holdings_neutral (looksOnly value).light.neutral
  have hitch : ∀ released loaded value,
      (holdings released loaded).Balances 0 Spent (jsValueToHitch jib.context value) :=
    fun _ _ value => holdings_neutral (neutral_jsValueToHitch jib.context value)
  cases reader with
  | decoded decode =>
      exact ⟨_, none, _, .decoded,
        light fun value => looksOnly_jsValueToDecodable jib.context value decode,
        rfl, fun _ => rfl, fun _ _ => rfl⟩
  | function =>
      refine ⟨_, none, _, .function, ?_, rfl, fun _ => rfl, fun _ _ => rfl⟩
      intro released loaded value
      apply (holdings_jsValueToFunction jib.context value).mono
      rintro made _ rfl
      cases made with
      | none => rfl
      | some function => exact (add_zero _).symm
  | hitch => exact ⟨_, none, _, .text, hitch, rfl, fun _ => rfl, fun _ _ => rfl⟩
  | halfhitch => exact ⟨_, none, _, .text, hitch, rfl, fun _ => rfl, fun _ _ => rfl⟩
  | string => exact ⟨_, none, _, .text, hitch, rfl, fun _ => rfl, fun _ _ => rfl⟩
  | date parse =>
      exact ⟨_, none, _, fun text => .decoded (text.bind parse), hitch, rfl,
        fun _ => bind_assoc _ _ _, fun _ _ => bind_assoc _ _ _⟩
  | double =>
      exact ⟨_, none, _, .double, light (looksOnly_jsValueToDouble jib.context), rfl,
        fun _ => rfl, fun _ _ => rfl⟩
  | int =>
      exact ⟨_, .ok none, _, .int, light (looksOnly_jsValueToInt jib.context), rfl,
        fun _ => rfl, fun _ _ => rfl⟩
  | bool =>
      exact ⟨_, none, _, .bool, light (looksOnly_jsValueToBool jib.context), rfl,
        fun _ => rfl, fun _ _ => rfl⟩
  | json =>
      exact ⟨_, none, _, .text, light (looksOnly_jsValueToJson jib.context), rfl,
        fun _ => rfl, fun _ _ => rfl⟩

theorem holdings_callJSValue (function : JibFunction) (arguments : List (Option JibUnknown)) :
    (holdings released loaded).Balances 0 Spent (callJSValue jib function arguments) :=
  holdings_unlessReleased_neutral (neutral_callBody jib function arguments)

theorem holdings_setGlobalValue (name : HalfHitch) (value : JSValueRef) :
    (holdings released loaded).Balances 0 Spent (setGlobalValue jib name value) := by
  obtain ⟨body, neutral, isBody⟩ := exists_neutral_setGlobalValue jib name value
  rw [isBody]
  exact holdings_unlessReleased_neutral neutral

/-- Operations that make no function leave what the functions of their reply
hold. -/
theorem PublicOperation.holdings_program {operation : PublicOperation D}
    (notNew : ∀ name body, operation ≠ .newFunction name body) :
    (holdings released loaded).Balances 0 (Yielding Reply.wrapping) (operation.program jib) := by
  cases operation with
  | eval script =>
      exact holdings_reply (holdings_unlessReleased_neutral (neutral_evalBody jib script))
        fun _ => rfl
  | setGlobalValue name value =>
      exact holdings_reply (holdings_setGlobalValue jib name value) fun _ => rfl
  | setGlobal name value =>
      exact holdings_reply (holdings_setGlobalValue jib name _) fun _ => rfl
  | newFunction name body => exact (notNew name body rfl).elim
  | garbageCollect =>
      have collect : Neutral (jsGarbageCollect jib.context) := by simp
      exact holdings_reply (holdings_unlessReleased_neutral collect) fun _ => rfl
  | subscript reader exec =>
      obtain ⟨_, absent, convert, wrap, wrapping⟩ := reader.wrapping jib
      rw [program, wrapping.subscript]
      apply holdings_reply _ fun _ => rfl
      apply holdings_unlessReleased
      · exact fun _ => wrapping.absent_wrapping.symm
      · intro _
        apply (holdings_neutral (neutral_resolve jib exec)).seq
        rintro value _ rfl
        exact wrapping.balances _ _ value
  | call reader function arguments =>
      obtain ⟨_, absent, convert, wrap, wrapping⟩ := reader.wrapping jib
      rw [program, wrapping.call]
      apply holdings_reply _ fun _ => rfl
      apply (holdings_callJSValue jib function arguments).seq
      rintro value _ rfl
      exact wrapping.balances _ _ value
  | callNone function arguments =>
      apply holdings_reply _ fun _ => rfl
      apply (holdings_callJSValue jib function arguments).seq
      rintro value _ rfl
      exact balances_done rfl

/-! ## The constructor -/

theorem neutral_copyGlobals (clone : Option JibFields) : Neutral (copyGlobals jib clone) := by
  cases clone with
  | none => trivial
  | some clone =>
      have round : ∀ cloneGlobal name, Neutral (copyProperty jib clone cloneGlobal name) :=
        fun _ _ => ⟨rfl, fun _ => ⟨rfl, fun _ => trivial⟩⟩
      refine ⟨rfl, fun cloneGlobal => ⟨rfl, fun names => ?_⟩⟩
      have rounds : Neutral (forEach (copyProperty jib clone cloneGlobal) names.names) :=
        Uses.forEach (round cloneGlobal) names.names
      exact rounds.bind fun _ => ⟨rfl, fun _ => trivial⟩

theorem holdings_installConsole (printFn : Option JibFunction) :
    (holdings released loaded).Balances 0 Spent (installConsole jib printFn) := by
  cases printFn with
  | none => exact balances_done rfl
  | some printFn =>
      apply (holdings_setGlobalValue jib printName _).seq
      rintro _ _ rfl
      apply (holdings_unlessReleased_neutral (neutral_evalBody jib consoleScript)).seq
      rintro _ _ rfl
      exact balances_done rfl

end Jib.JSC
