import Mathlib.Computability.Language
import Mathlib.Logic.Relation

/-!
# Brackets in the words of a grammar

A grammar is a relation between nonterminals and the bodies of their rules;
it may have infinitely many of both.  Where the brackets of every body match,
those of every derived word do.  A word in brackets that closes neither of
them is derived between the brackets of one body.
-/

namespace BracketGrammar

variable {Terminal Nonterminal : Type}

/-- Two terminals that enclose words. -/
structure Brackets (Terminal : Type) where
  opening : Terminal
  closing : Terminal
  distinct : opening ≠ closing

/-! ## Depth -/

namespace Brackets

variable [DecidableEq Terminal] (brackets : Brackets Terminal)

/-- The number of open brackets after a terminal; none where it closes a
bracket that was not opened. -/
def step (depth : Nat) (terminal : Terminal) : Option Nat :=
  if terminal = brackets.opening then some (depth + 1)
  else if terminal = brackets.closing then
    match depth with
    | 0 => none
    | depth + 1 => some depth
  else some depth

/-- The number of open brackets after a word. -/
def depthAfter (depth : Nat) (word : List Terminal) : Option Nat :=
  word.foldlM brackets.step depth

/-- Every bracket is closed, and none that was not opened. -/
def Balanced (word : List Terminal) : Prop :=
  brackets.depthAfter 0 word = some 0

/-- Some bracket is closed that was not opened. -/
def ClosesMore (word : List Terminal) : Prop :=
  brackets.depthAfter 0 word = none

instance (word : List Terminal) : Decidable (brackets.Balanced word) :=
  inferInstanceAs (Decidable (_ = _))

instance (word : List Terminal) : Decidable (brackets.ClosesMore word) :=
  inferInstanceAs (Decidable (_ = _))

variable {brackets} {depth after : Nat} {word rest : List Terminal}

@[simp]
theorem step_opening : brackets.step depth brackets.opening = some (depth + 1) := by
  simp [step]

@[simp]
theorem step_zero_closing : brackets.step 0 brackets.closing = none := by
  simp [step, brackets.distinct.symm]

@[simp]
theorem step_succ_closing :
    brackets.step (depth + 1) brackets.closing = some depth := by
  simp [step, brackets.distinct.symm]

theorem step_eq_none {terminal : Terminal} (closes : brackets.step depth terminal = none) :
    depth = 0 ∧ terminal = brackets.closing := by
  unfold step at closes
  split at closes
  · cases closes
  · split at closes
    · rename_i isClosing
      cases depth with
      | zero => exact ⟨rfl, isClosing⟩
      | succ depth => cases closes
    · cases closes

theorem step_add {terminal : Terminal} (more : Nat)
    (steps : brackets.step depth terminal = some after) :
    brackets.step (depth + more) terminal = some (after + more) := by
  unfold step at steps ⊢
  split at steps
  · cases steps
    rw [if_pos ‹_›, Nat.add_right_comm]
  · rw [if_neg ‹_›]
    split at steps
    · rw [if_pos ‹_›]
      cases depth with
      | zero => cases steps
      | succ depth =>
          cases steps
          rw [Nat.add_right_comm]
    · cases steps
      rw [if_neg ‹_›]

@[simp]
theorem depthAfter_nil : brackets.depthAfter depth [] = some depth :=
  rfl

@[simp]
theorem depthAfter_cons (first : Terminal) :
    brackets.depthAfter depth (first :: rest) =
      (brackets.step depth first).bind (brackets.depthAfter · rest) :=
  List.foldlM_cons

@[simp]
theorem depthAfter_append :
    brackets.depthAfter depth (word ++ rest) =
      (brackets.depthAfter depth word).bind (brackets.depthAfter · rest) :=
  List.foldlM_append

/-- Brackets that are open before a word stay open. -/
theorem depthAfter_add (more : Nat) (ends : brackets.depthAfter depth word = some after) :
    brackets.depthAfter (depth + more) word = some (after + more) := by
  induction word generalizing depth with
  | nil =>
      cases ends
      rfl
  | cons first rest ih =>
      rw [depthAfter_cons] at ends ⊢
      obtain ⟨middle, steps, ends⟩ := Option.bind_eq_some_iff.mp ends
      rw [step_add more steps]
      exact ih ends

theorem Balanced.depthAfter (balanced : brackets.Balanced word) (depth : Nat) :
    brackets.depthAfter depth word = some depth := by
  simpa using depthAfter_add depth balanced

/-- What closes too much closes too much after a part in which all brackets
match. -/
theorem exists_of_depthAfter_eq_none (closes : brackets.depthAfter depth word = none) :
    ∃ front back, word = front ++ brackets.closing :: back ∧
      brackets.depthAfter depth front = some 0 := by
  induction word generalizing depth with
  | nil => cases closes
  | cons first rest ih =>
      rw [depthAfter_cons] at closes
      cases steps : brackets.step depth first with
      | none =>
          obtain ⟨rfl, rfl⟩ := step_eq_none steps
          exact ⟨[], rest, rfl, rfl⟩
      | some middle =>
          rw [steps] at closes
          obtain ⟨front, back, rfl, ends⟩ := ih closes
          refine ⟨first :: front, back, rfl, ?_⟩
          rw [depthAfter_cons, steps]
          exact ends

theorem closesMore_iff :
    brackets.ClosesMore word ↔
      ∃ front back, word = front ++ brackets.closing :: back ∧ brackets.Balanced front := by
  constructor
  · exact exists_of_depthAfter_eq_none
  · rintro ⟨front, back, rfl, balanced⟩
    simp [ClosesMore, balanced.depthAfter]

theorem exists_depthAfter_of_not_closesMore (closes : ¬brackets.ClosesMore word) :
    ∃ after, brackets.depthAfter 0 word = some after :=
  Option.ne_none_iff_exists'.mp closes

/-- What closes an opening bracket closes too much without it. -/
theorem closesMore_of_balanced_opening
    (balanced : brackets.Balanced (brackets.opening :: word)) (rest : List Terminal) :
    brackets.ClosesMore (word ++ rest) := by
  by_contra closes
  obtain ⟨_, ends⟩ := exists_depthAfter_of_not_closesMore closes
  rw [depthAfter_append] at ends
  obtain ⟨after, ends, -⟩ := Option.bind_eq_some_iff.mp ends
  have closed : brackets.depthAfter 1 word = some 0 := by simpa [Balanced] using balanced
  have deeper := depthAfter_add 1 ends
  rw [Nat.zero_add, closed] at deeper
  simp at deeper

/-- What a closing bracket closes is open before it. -/
theorem depthAfter_of_balanced_closing
    (balanced : brackets.Balanced (word ++ [brackets.closing])) :
    brackets.depthAfter 0 word = some 1 := by
  rw [Balanced, depthAfter_append] at balanced
  obtain ⟨after, ends, closes⟩ := Option.bind_eq_some_iff.mp balanced
  rw [ends]
  cases after with
  | zero => simp at closes
  | succ after =>
      obtain rfl : after = 0 := by simpa using closes
      rfl

/-- A word in brackets that does not close them has no part that opens what the
last bracket closes. -/
theorem closesMore_of_balanced_closing {own : List Terminal}
    (whole : brackets.Balanced (brackets.opening :: (word ++ own) ++ [brackets.closing]))
    (balanced : brackets.Balanced (own ++ [brackets.closing])) :
    brackets.ClosesMore (word ++ own) := by
  by_contra closes
  obtain ⟨after, ends⟩ := exists_depthAfter_of_not_closesMore closes
  have opens := depthAfter_of_balanced_closing whole
  rw [depthAfter_cons, step_opening, Option.bind_some] at opens
  have deeper := depthAfter_add 1 ends
  obtain rfl : after = 0 := by
    rw [Nat.zero_add] at deeper
    rw [opens] at deeper
    simpa using deeper.symm
  rw [depthAfter_append] at ends
  obtain ⟨middle, -, ends⟩ := Option.bind_eq_some_iff.mp ends
  have opened := depthAfter_add middle (depthAfter_of_balanced_closing balanced)
  rw [Nat.zero_add, ends, Option.some_inj] at opened
  omega

end Brackets

/-! ## Derivations -/

/-- The form of terminals and nonterminals derives the word. -/
inductive Derives (rules : Nonterminal → List (Symbol Terminal Nonterminal) → Prop) :
    List (Symbol Terminal Nonterminal) → List Terminal → Prop
  | nil : Derives rules [] []
  | terminal (first : Terminal) {form : List (Symbol Terminal Nonterminal)}
      {rest : List Terminal} (derives : Derives rules form rest) :
      Derives rules (.terminal first :: form) (first :: rest)
  | nonterminal {head : Nonterminal} {body form : List (Symbol Terminal Nonterminal)}
      {own rest : List Terminal} (rule : rules head body) (expands : Derives rules body own)
      (derives : Derives rules form rest) :
      Derives rules (.nonterminal head :: form) (own ++ rest)

variable {rules : Nonterminal → List (Symbol Terminal Nonterminal) → Prop}
  {form : List (Symbol Terminal Nonterminal)} {word : List Terminal}

theorem Derives.append {others : List (Symbol Terminal Nonterminal)} {rest : List Terminal}
    (derives : Derives rules form word) (follows : Derives rules others rest) :
    Derives rules (form ++ others) (word ++ rest) := by
  induction derives with
  | nil => exact follows
  | terminal first _ ih => exact .terminal first ih
  | nonterminal rule expands _ _ ih =>
      rw [List.append_assoc]
      exact .nonterminal rule expands ih

theorem derives_nonterminal {head : Nonterminal}
    {body : List (Symbol Terminal Nonterminal)} (rule : rules head body)
    (derives : Derives rules body word) : Derives rules [.nonterminal head] word := by
  simpa using Derives.nonterminal rule derives .nil

theorem derives_nonterminal_iff {head : Nonterminal} :
    Derives rules [.nonterminal head] word ↔
      ∃ body, rules head body ∧ Derives rules body word := by
  constructor
  · rintro (_ | _ | ⟨rule, expands, nothing⟩)
    cases nothing
    rw [List.append_nil]
    exact ⟨_, rule, expands⟩
  · rintro ⟨body, rule, derives⟩
    exact derives_nonterminal rule derives

/-- The last terminal of a word stands in the form, or in what one nonterminal
of the form derives. -/
theorem Derives.exists_last {last : Terminal}
    (derives : Derives rules form (word ++ [last])) :
    (∃ front back, form = front ++ .terminal last :: back ∧
        Derives rules front word ∧ Derives rules back []) ∨
      ∃ head other own, word = other ++ own ∧
        Derives rules [.nonterminal head] (own ++ [last]) := by
  generalize whole : word ++ [last] = text at derives
  induction derives generalizing word with
  | nil => simp at whole
  | @terminal first form rest derives ih =>
      cases word with
      | nil =>
          obtain ⟨rfl, rfl⟩ := List.cons_eq_cons.mp whole
          exact Or.inl ⟨[], form, rfl, .nil, derives⟩
      | cons symbol word =>
          obtain ⟨rfl, isRest⟩ := List.cons_eq_cons.mp whole
          rcases ih isRest with ⟨front, back, rfl, before, nothing⟩ | ⟨head, other, own, rfl, ends⟩
          · exact Or.inl ⟨_, back, rfl, .terminal symbol before, nothing⟩
          · exact Or.inr ⟨head, symbol :: other, own, rfl, ends⟩
  | @nonterminal head body form own rest rule expands derives _ ih =>
      rcases List.eq_nil_or_concat rest with rfl | ⟨rest, symbol, rfl⟩
      · rw [List.append_nil] at whole
        subst whole
        exact Or.inr ⟨head, [], word, rfl, derives_nonterminal rule expands⟩
      · rw [List.concat_eq_append, ← List.append_assoc] at whole
        obtain ⟨rfl, same⟩ := List.append_inj' whole rfl
        obtain rfl := List.singleton_inj.mp same
        rcases ih (List.concat_eq_append).symm with
          ⟨front, back, rfl, before, nothing⟩ | ⟨next, other, part, rfl, ends⟩
        · exact Or.inl ⟨_, back, rfl, .nonterminal rule expands before, nothing⟩
        · exact Or.inr ⟨next, own ++ other, part, by simp, ends⟩

/-- The nonterminal is all that the form derives anything of. -/
def Alone (rules : Nonterminal → List (Symbol Terminal Nonterminal) → Prop)
    (form : List (Symbol Terminal Nonterminal)) (head : Nonterminal) : Prop :=
  ∃ front back, form = front ++ .nonterminal head :: back ∧
    Derives rules front [] ∧ Derives rules back []

/-- A word of the first nonterminal can be a word of the second one and nothing
else. -/
def StandsAlone (rules : Nonterminal → List (Symbol Terminal Nonterminal) → Prop) :
    Nonterminal → Nonterminal → Prop :=
  Relation.ReflTransGen fun head next => ∃ body, rules head body ∧ Alone rules body next

namespace Brackets

variable (brackets : Brackets Terminal)

/-- The form has the brackets, the word in between, and nothing else. -/
def Encloses (rules : Nonterminal → List (Symbol Terminal Nonterminal) → Prop)
    (form : List (Symbol Terminal Nonterminal)) (word : List Terminal) : Prop :=
  ∃ front middle back,
    form = front ++ .terminal brackets.opening ::
        (middle ++ .terminal brackets.closing :: back) ∧
      Derives rules front [] ∧ Derives rules middle word ∧ Derives rules back []

end Brackets

/-- The terminals of a form. -/
def terminals (form : List (Symbol Terminal Nonterminal)) : List Terminal :=
  form.filterMap fun
    | .terminal terminal => some terminal
    | .nonterminal _ => none

@[simp]
theorem terminals_nil : terminals ([] : List (Symbol Terminal Nonterminal)) = [] :=
  rfl

@[simp]
theorem terminals_terminal (first : Terminal) :
    terminals (.terminal first :: form) = first :: terminals form :=
  rfl

@[simp]
theorem terminals_nonterminal (head : Nonterminal) :
    terminals (.nonterminal head :: form) = terminals form :=
  rfl

namespace Brackets

variable [DecidableEq Terminal] (brackets : Brackets Terminal)

/-- The brackets of every body match. -/
def BalancedRules (rules : Nonterminal → List (Symbol Terminal Nonterminal) → Prop) :
    Prop :=
  ∀ head body, rules head body → brackets.Balanced (terminals body)

variable {brackets}

/-- A word leaves open what the terminals of its form leave open. -/
theorem BalancedRules.depthAfter (balanced : brackets.BalancedRules rules)
    (derives : Derives rules form word) {depth after : Nat}
    (ends : brackets.depthAfter depth (terminals form) = some after) :
    brackets.depthAfter depth word = some after := by
  induction derives generalizing depth after with
  | nil => exact ends
  | terminal first _ ih =>
      rw [terminals_terminal, depthAfter_cons] at ends
      obtain ⟨middle, steps, ends⟩ := Option.bind_eq_some_iff.mp ends
      rw [depthAfter_cons, steps]
      exact ih ends
  | nonterminal rule _ _ own others =>
      have matched : brackets.Balanced _ := own (balanced _ _ rule)
      rw [depthAfter_append, matched.depthAfter]
      exact others ends

theorem BalancedRules.balanced (balanced : brackets.BalancedRules rules)
    {head : Nonterminal} (derives : Derives rules [.nonterminal head] word) :
    brackets.Balanced word :=
  balanced.depthAfter derives rfl

/-- What a form derives in brackets that are not closed inside comes from one
body with these brackets. -/
theorem BalancedRules.encloses (balanced : brackets.BalancedRules rules)
    (whole : brackets.Balanced (brackets.opening :: word ++ [brackets.closing]))
    (closes : ¬brackets.ClosesMore word)
    (derives : Derives rules form (brackets.opening :: word ++ [brackets.closing])) :
    brackets.Encloses rules form word ∨
      ∃ head lead body, Alone rules form head ∧ StandsAlone rules head lead ∧
        rules lead body ∧ brackets.Encloses rules body word := by
  generalize isWhole : brackets.opening :: word ++ [brackets.closing] = text at derives
  induction derives with
  | nil => simp at isWhole
  | @terminal first form rest derives _ =>
      obtain ⟨rfl, rfl⟩ := List.cons_eq_cons.mp isWhole
      rcases derives.exists_last with ⟨middle, back, rfl, inside, nothing⟩ |
        ⟨head, other, own, rfl, ends⟩
      · exact Or.inl ⟨[], middle, back, rfl, .nil, inside, nothing⟩
      · exact absurd (closesMore_of_balanced_closing whole (balanced.balanced ends)) closes
  | @nonterminal head body form own rest rule expands derives inBody inForm =>
      rcases own with _ | ⟨first, own⟩
      · -- the nonterminal derives nothing
        rcases inForm isWhole with ⟨front, middle, back, rfl, before, inside, nothing⟩ |
          ⟨next, lead, leadBody, ⟨front, back, rfl, before, nothing⟩, rest⟩
        · exact Or.inl ⟨_, middle, back, rfl, .nonterminal rule expands before, inside, nothing⟩
        · exact Or.inr ⟨next, lead, leadBody,
            ⟨_, back, rfl, .nonterminal rule expands before, nothing⟩, rest⟩
      · rcases List.eq_nil_or_concat rest with rfl | ⟨rest, last, rfl⟩
        · -- it derives everything
          rw [List.append_nil] at isWhole
          have alone : Alone rules (.nonterminal head :: form) head :=
            ⟨[], form, rfl, .nil, derives⟩
          rcases inBody isWhole with encloses | ⟨next, lead, leadBody, isNext, stands, rest⟩
          · exact Or.inr ⟨head, head, body, alone, .refl, rule, encloses⟩
          · exact Or.inr ⟨head, lead, leadBody, alone, .head ⟨body, rule, isNext⟩ stands, rest⟩
        · -- it derives the opening bracket without the closing one
          rw [List.concat_eq_append, List.cons_append, List.cons_append,
            ← List.append_assoc] at isWhole
          obtain ⟨rfl, isRest⟩ := List.cons_eq_cons.mp isWhole
          obtain ⟨rfl, -⟩ := List.append_inj' isRest rfl
          have matched := balanced.balanced (derives_nonterminal rule expands)
          exact absurd (closesMore_of_balanced_opening matched _) closes

/-- A word in brackets that are not closed inside, if a nonterminal derives it,
comes from one body with these brackets that can stand alone. -/
theorem BalancedRules.exists_encloses (balanced : brackets.BalancedRules rules)
    (closes : ¬brackets.ClosesMore word) {head : Nonterminal}
    (derives : Derives rules [.nonterminal head]
      (brackets.opening :: word ++ [brackets.closing])) :
    ∃ lead body, StandsAlone rules head lead ∧ rules lead body ∧
      brackets.Encloses rules body word := by
  obtain ⟨body, rule, expands⟩ := derives_nonterminal_iff.mp derives
  rcases balanced.encloses (balanced.balanced derives) closes expands with encloses |
    ⟨next, lead, leadBody, isNext, stands, isRule, encloses⟩
  · exact ⟨head, body, .refl, rule, encloses⟩
  · exact ⟨lead, leadBody, .head ⟨body, rule, isNext⟩ stands, isRule, encloses⟩

/-- A word after an opening bracket, if a nonterminal derives both, closes it. -/
theorem BalancedRules.closesMore (balanced : brackets.BalancedRules rules)
    {head : Nonterminal}
    (derives : Derives rules [.nonterminal head] (brackets.opening :: word)) :
    brackets.ClosesMore word := by
  have closes := closesMore_of_balanced_opening (balanced.balanced derives) []
  rwa [List.append_nil] at closes

end Brackets

end BracketGrammar
