import Mathlib.Data.List.Basic

/-!
# JSON texts

The grammar of JSON over chars: spaces, numbers, strings with their escapes, and
values, with the lists of elements and of members that arrays and objects are
made of.  A value shows what it is by its first char.
-/

namespace JsonGrammar

/-! ## Tokens -/

def isSpace (char : Char) : Bool :=
  char = ' ' || char = '\t' || char = '\n' || char = '\r'

def Spaces (text : List Char) : Prop :=
  ∀ char ∈ text, isSpace char = true

def Digits (text : List Char) : Prop :=
  text ≠ [] ∧ ∀ char ∈ text, char.isDigit = true

def isHexDigit (char : Char) : Bool :=
  char.isDigit || ('a' ≤ char && char ≤ 'f') || ('A' ≤ char && char ≤ 'F')

/-- What follows the sign: digits without a leading zero. -/
inductive Whole : List Char → Prop
  | zero : Whole ['0']
  | digits {first : Char} {rest : List Char} (isDigit : first.isDigit = true)
      (notZero : first ≠ '0') (digits : ∀ char ∈ rest, char.isDigit = true) :
      Whole (first :: rest)

inductive Fraction : List Char → Prop
  | none : Fraction []
  | digits {digits : List Char} (isDigits : Digits digits) : Fraction ('.' :: digits)

inductive Exponent : List Char → Prop
  | none : Exponent []
  | digits {mark : Char} {sign digits : List Char} (isMark : mark = 'e' ∨ mark = 'E')
      (isSign : sign ∈ [[], ['+'], ['-']]) (isDigits : Digits digits) :
      Exponent (mark :: (sign ++ digits))

inductive Number : List Char → Prop
  | mk {sign whole fraction exponent : List Char} (isSign : sign ∈ [[], ['-']])
      (isWhole : Whole whole) (isFraction : Fraction fraction)
      (isExponent : Exponent exponent) : Number (sign ++ whole ++ fraction ++ exponent)

/-- The chars of a string up to its closing quote. -/
inductive Chars : List Char → Prop
  | nil : Chars []
  | plain {char : Char} {rest : List Char} (notControl : 0x20 ≤ char.toNat)
      (notQuote : char ≠ '"') (notEscape : char ≠ '\\') (chars : Chars rest) :
      Chars (char :: rest)
  | escape {char : Char} {rest : List Char} (isEscape : char ∈ "\"\\/bfnrt".toList)
      (chars : Chars rest) : Chars ('\\' :: char :: rest)
  | unicode {digits rest : List Char} (four : digits.length = 4)
      (isHex : ∀ char ∈ digits, isHexDigit char = true) (chars : Chars rest) :
      Chars ('\\' :: 'u' :: (digits ++ rest))

inductive Quoted : List Char → Prop
  | mk {chars : List Char} (isChars : Chars chars) : Quoted ('"' :: (chars ++ ['"']))

/-! ## Values -/

inductive Part
  | value
  | element
  | elements
  | member
  | members

/-- The texts of values and of the lists in arrays and objects.  An element is
a value between spaces. -/
inductive Reads : Part → List Char → Prop
  | null : Reads .value "null".toList
  | true : Reads .value "true".toList
  | false : Reads .value "false".toList
  | number {text : List Char} (isNumber : Number text) : Reads .value text
  | string {text : List Char} (isString : Quoted text) : Reads .value text
  | emptyArray {spaces : List Char} (isSpaces : Spaces spaces) :
      Reads .value ('[' :: (spaces ++ [']']))
  | array {elements : List Char} (areElements : Reads .elements elements) :
      Reads .value ('[' :: (elements ++ [']']))
  | emptyObject {spaces : List Char} (isSpaces : Spaces spaces) :
      Reads .value ('\x7b' :: (spaces ++ ['\x7d']))
  | object {members : List Char} (areMembers : Reads .members members) :
      Reads .value ('\x7b' :: (members ++ ['\x7d']))
  | element {before value after : List Char} (isBefore : Spaces before)
      (isValue : Reads .value value) (isAfter : Spaces after) :
      Reads .element (before ++ (value ++ after))
  | lastElement {last : List Char} (isLast : Reads .element last) : Reads .elements last
  | nextElement {first rest : List Char} (isFirst : Reads .element first)
      (areRest : Reads .elements rest) : Reads .elements (first ++ ',' :: rest)
  | member {before name between value : List Char} (isBefore : Spaces before)
      (isName : Quoted name) (isBetween : Spaces between) (isValue : Reads .element value) :
      Reads .member (before ++ name ++ between ++ ':' :: value)
  | lastMember {last : List Char} (isLast : Reads .member last) : Reads .members last
  | nextMember {first rest : List Char} (isFirst : Reads .member first)
      (areRest : Reads .members rest) : Reads .members (first ++ ',' :: rest)

/-- A text that is one value. -/
def JsonText (text : List Char) : Prop :=
  Reads .element text

/-! ## First chars -/

/-- The chars that values begin with. -/
def startsValue (char : Char) : Bool :=
  char.isDigit || char ∈ ['\x7b', '[', '"', '-', 't', 'f', 'n']

theorem Whole.first {text : List Char} (isWhole : Whole text) :
    ∃ first rest, text = first :: rest ∧ first.isDigit = true := by
  cases isWhole with
  | zero => exact ⟨'0', [], rfl, rfl⟩
  | digits isDigit _ _ => exact ⟨_, _, rfl, isDigit⟩

theorem Number.first {text : List Char} (isNumber : Number text) :
    ∃ first rest, text = first :: rest ∧ startsValue first = true := by
  obtain ⟨isSign, isWhole, _, _⟩ := isNumber
  obtain ⟨first, rest, rfl, isDigit⟩ := isWhole.first
  rcases List.mem_pair.mp isSign with rfl | rfl
  · exact ⟨first, _, rfl, by simp [startsValue, isDigit]⟩
  · exact ⟨'-', _, rfl, rfl⟩

/-- A value begins with a char that only values begin with. -/
theorem first_of_value {text : List Char} (isValue : Reads .value text) :
    ∃ first rest, text = first :: rest ∧ startsValue first = true := by
  cases isValue with
  | null => exact ⟨'n', _, rfl, rfl⟩
  | true => exact ⟨'t', _, rfl, rfl⟩
  | false => exact ⟨'f', _, rfl, rfl⟩
  | number isNumber => exact isNumber.first
  | string isString =>
      obtain ⟨_⟩ := isString
      exact ⟨'"', _, rfl, rfl⟩
  | emptyArray _ => exact ⟨'[', _, rfl, rfl⟩
  | array _ => exact ⟨'[', _, rfl, rfl⟩
  | emptyObject _ => exact ⟨'\x7b', _, rfl, rfl⟩
  | object _ => exact ⟨'\x7b', _, rfl, rfl⟩

/-- A text is no JSON if it begins with anything but a space or a value. -/
theorem not_jsonText {char : Char} {rest : List Char} (notSpace : isSpace char = false)
    (notStart : startsValue char = false) : ¬ JsonText (char :: rest) := by
  intro isJson
  generalize isText : char :: rest = text at isJson
  cases isJson with
  | @element before value after isBefore isValue _ =>
      obtain ⟨first, others, rfl, starts⟩ := first_of_value isValue
      cases before with
      | nil =>
          obtain ⟨rfl, _⟩ := List.cons.inj isText
          rw [notStart] at starts
          cases starts
      | cons space spaces =>
          obtain ⟨rfl, _⟩ := List.cons.inj isText
          rw [isBefore char (by simp)] at notSpace
          cases notSpace

theorem jsonText_of_value {text : List Char} (isValue : Reads .value text) : JsonText text := by
  have element := @Reads.element [] text [] (by simp [Spaces]) isValue (by simp [Spaces])
  simpa [JsonText] using element

end JsonGrammar
