import Jib.HitchText
import Jib.UnicodeText
import Mathlib.Algebra.Group.Nat.Defs

/-!
# Strings of QuickJS

A string of the engine has chars of 8 or of 16 bits.  `JS_NewStringLen` makes
one of UTF-8, and `JS_ToCStringLen2` gives the UTF-8 of one.  Sizes are of type
`int`; an allocation of a size beyond it fails.
-/

namespace Jib.QuickJS

open UnicodeText

/-! ## Code points -/

def unicodeToUtf8 (c : Nat) : Bytes :=
  let tail (shift : Nat) : UInt8 := .ofNat (c >>> shift &&& 0x3F ||| 0x80)
  if c < 0x80 then [.ofNat c]
  else if c < 0x800 then [.ofNat (c >>> 6 ||| 0xC0), tail 0]
  else if c < 0x10000 then [.ofNat (c >>> 12 ||| 0xE0), tail 6, tail 0]
  else if c < 0x200000 then [.ofNat (c >>> 18 ||| 0xF0), tail 12, tail 6, tail 0]
  else if c < 0x4000000 then
    [.ofNat (c >>> 24 ||| 0xF8), tail 18, tail 12, tail 6, tail 0]
  else if c < 0x80000000 then
    [.ofNat (c >>> 30 ||| 0xFC), tail 24, tail 18, tail 12, tail 6, tail 0]
  else []

/-- The number of bytes after the first one, its mask and the least code point
of that length: `utf8_first_code_mask` and `utf8_min_code`. -/
def utf8Length? (first : UInt8) : Option (Nat × Nat × Nat) :=
  if 0xC0 ≤ first ∧ first ≤ 0xDF then some (1, 0x1F, 0x80)
  else if 0xE0 ≤ first ∧ first ≤ 0xEF then some (2, 0xF, 0x800)
  else if 0xF0 ≤ first ∧ first ≤ 0xF7 then some (3, 0x7, 0x10000)
  else if 0xF8 ≤ first ∧ first ≤ 0xFB then some (4, 0x3, 0x200000)
  else if 0xFC ≤ first ∧ first ≤ 0xFD then some (5, 0x1, 0x4000000)
  else none

/-- The loop of `unicode_from_utf8`.  It also stops where the bytes end, as the
test before the loop does. -/
def continueUtf8 : Nat → Nat → Bytes → Option (Nat × Bytes)
  | 0, c, rest => some (c, rest)
  | _ + 1, _, [] => none
  | l + 1, c, b :: rest =>
      if b < 0x80 ∨ 0xC0 ≤ b then none
      else continueUtf8 l (c <<< 6 ||| (b.toNat &&& 0x3F)) rest

/-- `unicode_from_utf8`: the code point and the bytes after it. -/
def unicodeFromUtf8 : Bytes → Option (Nat × Bytes)
  | [] => none
  | first :: rest =>
      if first < 0x80 then some (first.toNat, rest)
      else
        match utf8Length? first with
        | none => none
        | some (l, mask, minCode) =>
            match continueUtf8 l (first.toNat &&& mask) rest with
            | some (c, rest) => if c < minCode then none else some (c, rest)
            | none => none

def isHiSurrogate (c : Nat) : Bool :=
  c >>> 10 == 0xD800 >>> 10

def isLoSurrogate (c : Nat) : Bool :=
  c >>> 10 == 0xDC00 >>> 10

def getHiSurrogate (c : Nat) : Nat :=
  c >>> 10 - 0x10000 >>> 10 + 0xD800

def getLoSurrogate (c : Nat) : Nat :=
  c &&& 0x3FF ||| 0xDC00

def fromSurrogate (hi lo : Nat) : Nat :=
  0x10000 + 0x400 * (hi - 0xD800) + (lo - 0xDC00)

/-! ## Strings -/

/-- `JSString`; the second kind is the one with `is_wide_char`. -/
inductive JSString
  | str8 (chars : List UInt8)
  | str16 (chars : List UInt16)
  deriving DecidableEq

namespace JSString

/-- The chars of a string, whatever their size. -/
def units : JSString → List UInt16
  | .str8 chars => chars.map (·.toUInt16)
  | .str16 chars => chars

/-- `string_buffer_putc16` and `string_buffer_putc8`; the first char beyond 8
bits widens the string. -/
def putc16 (string : JSString) (c : Nat) : JSString :=
  match string with
  | .str16 chars => .str16 (chars ++ [.ofNat c])
  | .str8 chars =>
      if c < 0x100 then .str8 (chars ++ [.ofNat c])
      else .str16 (chars.map (·.toUInt16) ++ [.ofNat c])

def isWide : JSString → Bool
  | .str8 _ => false
  | .str16 _ => true

end JSString

def intMax : Nat := 2 ^ 31 - 1

/-- `JS_STRING_LEN_MAX`. -/
def jsStringLenMax : Nat := 2 ^ 30 - 1

/-- The inner loops that skip bytes which continue a sequence. -/
def skipContinuation (bytes : Bytes) : Bytes :=
  bytes.dropWhile fun byte => 0x80 ≤ byte && byte < 0xC0

/-- What is left after an invalid sequence. -/
def skipInvalid (bytes : Bytes) : Bytes :=
  match skipContinuation bytes with
  | [] => []
  | _ :: rest => skipContinuation rest

/-- The loop of `JS_NewStringLen`.  Every round takes a byte at least. -/
def putUtf8 : Nat → JSString → Bytes → JSString
  | 0, string, _ => string
  | _ + 1, string, [] => string
  | rounds + 1, string, byte :: rest =>
      if byte < 0x80 then putUtf8 rounds (string.putc16 byte.toNat) rest
      else
        match unicodeFromUtf8 (byte :: rest) with
        | some (c, next) =>
            if c < 0x10000 then putUtf8 rounds (string.putc16 c) next
            else if c ≤ 0x10FFFF then
              putUtf8 rounds
                ((string.putc16 (getHiSurrogate c)).putc16 (getLoSurrogate c)) next
            else putUtf8 rounds (string.putc16 0xFFFD) (skipInvalid (byte :: rest))
        | none => putUtf8 rounds (string.putc16 0xFFFD) (skipInvalid (byte :: rest))

/-- The bytes before the first one beyond ASCII. -/
def asciiPrefix (bytes : Bytes) : Bytes :=
  bytes.takeWhile (· < 0x80)

/-- `string_buffer_end`, with the failure to widen a buffer of this size. -/
def bufferEnd (size : Nat) (string : JSString) : Option JSString :=
  if string.isWide ∧ intMax < size <<< 1 then none else some string

/-- `JS_NewStringLen`; `none` is `JS_EXCEPTION`. -/
def newStringLen (buf : Bytes) : Option JSString :=
  let start := asciiPrefix buf
  if jsStringLenMax < start.length then none
  else if start.length = buf.length then some (.str8 buf)
  else if intMax < buf.length then none
  else
    bufferEnd buf.length
      (putUtf8 buf.length (.str8 start) (buf.drop start.length))

/-- A char of 8 bits in UTF-8. -/
def latin1ToUtf8 (c : UInt8) : Bytes :=
  if c < 0x80 then [c]
  else [.ofNat (c.toNat >>> 6 ||| 0xC0), .ofNat (c.toNat &&& 0x3F ||| 0x80)]

/-- The loop of `JS_ToCStringLen2` over chars of 16 bits.  Unmatched surrogates
are kept. -/
def utf16ToUtf8 : List UInt16 → Bytes
  | [] => []
  | [c] => unicodeToUtf8 c.toNat
  | c :: c1 :: rest =>
      if isHiSurrogate c.toNat ∧ isLoSurrogate c1.toNat then
        unicodeToUtf8 (fromSurrogate c.toNat c1.toNat) ++ utf16ToUtf8 rest
      else unicodeToUtf8 c.toNat ++ utf16ToUtf8 (c1 :: rest)

/-- `JS_ToCStringLen2` of a string; `none` is `NULL`. -/
def toCStringLen : JSString → Option Bytes
  | .str8 src =>
      if src.countP (0x80 ≤ ·) = 0 then some src else some (src.flatMap latin1ToUtf8)
  | .str16 src =>
      if intMax < src.length * 3 then none else some (utf16ToUtf8 src)

/-! ## Code points of characters -/

/-- Bits that do not overlap are added. -/
theorem or_high (high width low : Nat) (small : low < 2 ^ width) :
    low ||| 2 ^ width * high = 2 ^ width * high + low := by
  rw [Nat.or_comm, Nat.two_pow_add_eq_or_of_lt small]

theorem and_tail (c : Nat) : c &&& 0x3F ||| 0x80 = 0x80 + c % 0x40 := by
  have low : c &&& 0x3F = c % 0x40 := Nat.and_two_pow_sub_one_eq_mod c 6
  rw [low]
  exact or_high 2 6 _ (Nat.mod_lt c (by omega))

theorem shiftLeft_or (c : Nat) (b : Nat) : c <<< 6 ||| (b &&& 0x3F) = c * 0x40 + b % 0x40 := by
  have low : b &&& 0x3F = b % 0x40 := Nat.and_two_pow_sub_one_eq_mod b 6
  rw [low, Nat.or_comm, Nat.shiftLeft_eq, Nat.mul_comm]
  exact or_high c 6 _ (Nat.mod_lt b (by omega))

/-- `unicode_to_utf8` encodes characters as UTF-8 does. -/
theorem unicodeToUtf8_toNat (char : Char) :
    unicodeToUtf8 char.toNat = String.utf8EncodeChar char := by
  have bound := toNat_lt_or char
  simp only [unicodeToUtf8, and_tail, Nat.shiftRight_eq_div_pow]
  by_cases one : char.toNat < 0x80
  · rw [if_pos one, utf8EncodeChar_one one]
  by_cases two : char.toNat < 0x800
  · have first : char.toNat / 2 ^ 6 ||| 0xC0 = 0xC0 + char.toNat / 2 ^ 6 :=
      or_high 3 6 _ (by omega)
    rw [if_neg one, if_pos two, utf8EncodeChar_two (by omega) two, first]
    simp
  by_cases three : char.toNat < 0x10000
  · have first : char.toNat / 2 ^ 12 ||| 0xE0 = 0xE0 + char.toNat / 2 ^ 12 :=
      or_high 14 4 _ (by omega)
    rw [if_neg one, if_neg two, if_pos three, utf8EncodeChar_three (by omega) three, first]
    simp
  · have first : char.toNat / 2 ^ 18 ||| 0xF0 = 0xF0 + char.toNat / 2 ^ 18 :=
      or_high 30 3 _ (by omega)
    rw [if_neg one, if_neg two, if_neg three, if_pos (by omega),
      utf8EncodeChar_four (by omega), first]
    simp

theorem toNat_ofNat_of_lt {n : Nat} (small : n < 0x100) : (UInt8.ofNat n).toNat = n :=
  Nat.mod_eq_of_lt small

/-- A byte that continues a sequence adds six bits. -/
theorem continueUtf8_tail (l c : Nat) (code : Nat) (rest : Bytes) :
    continueUtf8 (l + 1) c (.ofNat (0x80 + code % 0x40) :: rest) =
      continueUtf8 l (c * 0x40 + code % 0x40) rest := by
  have isTail : (UInt8.ofNat (0x80 + code % 0x40)).toNat = 0x80 + code % 0x40 :=
    toNat_ofNat_of_lt (by omega)
  have inside : ¬ (UInt8.ofNat (0x80 + code % 0x40) < 0x80 ∨
      0xC0 ≤ UInt8.ofNat (0x80 + code % 0x40)) := by
    rw [UInt8.lt_iff_toNat_lt, UInt8.le_iff_toNat_le, isTail]
    change ¬ (0x80 + code % 0x40 < 0x80 ∨ 0xC0 ≤ 0x80 + code % 0x40)
    omega
  have low : (0x80 + code % 0x40) % 0x40 = code % 0x40 := by omega
  rw [continueUtf8, if_neg inside, shiftLeft_or, isTail, low]

/-- The lengths of sequences, by the value of the first byte. -/
theorem utf8Length?_ofNat {n : Nat} (low : 0xC0 ≤ n) (high : n ≤ 0xF7) :
    utf8Length? (.ofNat n) =
      some (if n ≤ 0xDF then (1, 0x1F, 0x80) else if n ≤ 0xEF then (2, 0xF, 0x800)
        else (3, 0x7, 0x10000)) := by
  have value : (UInt8.ofNat n).toNat = n := toNat_ofNat_of_lt (by omega)
  simp only [utf8Length?, UInt8.le_iff_toNat_le, value]
  change (if 0xC0 ≤ n ∧ n ≤ 0xDF then _ else if 0xE0 ≤ n ∧ n ≤ 0xEF then _
    else if 0xF0 ≤ n ∧ n ≤ 0xF7 then _ else _) = _
  by_cases two : n ≤ 0xDF
  · rw [if_pos ⟨low, two⟩, if_pos two]
  by_cases three : n ≤ 0xEF
  · rw [if_neg (by omega), if_pos (by omega), if_neg two, if_pos three]
  · rw [if_neg (by omega), if_neg (by omega), if_pos (by omega), if_neg two, if_neg three]

/-- A sequence of several bytes is decoded as its length says. -/
theorem unicodeFromUtf8_ofNat {n l mask minCode : Nat} (low : 0xC0 ≤ n) (high : n ≤ 0xF7)
    (length : (if n ≤ 0xDF then (1, 0x1F, 0x80) else if n ≤ 0xEF then (2, 0xF, 0x800)
        else (3, 0x7, 0x10000)) = (l, mask, minCode))
    {c : Nat} {tail rest : Bytes} (continued : continueUtf8 l (n &&& mask) tail = some (c, rest))
    (isLeast : minCode ≤ c) :
    unicodeFromUtf8 (.ofNat n :: tail) = some (c, rest) := by
  have value : (UInt8.ofNat n).toNat = n := toNat_ofNat_of_lt (by omega)
  have beyond : ¬ UInt8.ofNat n < 0x80 := by
    rw [UInt8.lt_iff_toNat_lt, value]
    change ¬ n < 0x80
    omega
  simp only [unicodeFromUtf8, if_neg beyond, utf8Length?_ofNat low high, length, value, continued]
  exact if_neg (by omega)

/-- `unicode_from_utf8` decodes characters as UTF-8 does. -/
theorem unicodeFromUtf8_utf8EncodeChar (char : Char) (rest : Bytes) :
    unicodeFromUtf8 (String.utf8EncodeChar char ++ rest) = some (char.toNat, rest) := by
  have bound := toNat_lt_or char
  by_cases one : char.toNat < 0x80
  · have value : (UInt8.ofNat char.toNat).toNat = char.toNat := toNat_ofNat_of_lt (by omega)
    have ascii : UInt8.ofNat char.toNat < 0x80 := by
      rw [UInt8.lt_iff_toNat_lt, value]
      exact one
    rw [utf8EncodeChar_one one]
    simp only [List.cons_append, List.nil_append, unicodeFromUtf8, if_pos ascii, value]
  by_cases two : char.toNat < 0x800
  · have first : (0xC0 + char.toNat / 0x40) &&& 0x1F = char.toNat / 0x40 := by
      rw [Nat.and_two_pow_sub_one_eq_mod _ 5]
      omega
    rw [utf8EncodeChar_two (by omega) two]
    simp only [List.cons_append, List.nil_append]
    refine unicodeFromUtf8_ofNat (l := 1) (by omega) (by omega) (if_pos (by omega)) ?_
      (by omega)
    rw [first, continueUtf8_tail]
    exact congrArg (fun c => some (c, rest)) (by omega)
  by_cases three : char.toNat < 0x10000
  · have first : (0xE0 + char.toNat / 0x1000) &&& 0xF = char.toNat / 0x1000 := by
      rw [Nat.and_two_pow_sub_one_eq_mod _ 4]
      omega
    rw [utf8EncodeChar_three (by omega) three]
    simp only [List.cons_append, List.nil_append]
    refine unicodeFromUtf8_ofNat (l := 2) (by omega) (by omega)
      ((if_neg (by omega)).trans (if_pos (by omega))) ?_ (by omega)
    rw [first, continueUtf8_tail, continueUtf8_tail]
    exact congrArg (fun c => some (c, rest)) (by omega)
  · have first : (0xF0 + char.toNat / 0x40000) &&& 0x7 = char.toNat / 0x40000 := by
      rw [Nat.and_two_pow_sub_one_eq_mod _ 3]
      omega
    rw [utf8EncodeChar_four (by omega)]
    simp only [List.cons_append, List.nil_append]
    refine unicodeFromUtf8_ofNat (l := 3) (by omega) (by omega)
      ((if_neg (by omega)).trans (if_neg (by omega))) ?_ (by omega)
    rw [first, continueUtf8_tail, continueUtf8_tail, continueUtf8_tail]
    exact congrArg (fun c => some (c, rest)) (by omega)

/-! ## Surrogates -/

theorem isHiSurrogate_iff {c : Nat} : isHiSurrogate c = true ↔ 0xD800 ≤ c ∧ c < 0xDC00 := by
  rw [isHiSurrogate, beq_iff_eq, Nat.shiftRight_eq_div_pow]
  change c / 0x400 = 0x36 ↔ _
  omega

theorem isLoSurrogate_iff {c : Nat} : isLoSurrogate c = true ↔ 0xDC00 ≤ c ∧ c < 0xE000 := by
  rw [isLoSurrogate, beq_iff_eq, Nat.shiftRight_eq_div_pow]
  change c / 0x400 = 0x37 ↔ _
  omega

theorem getHiSurrogate_eq {c : Nat} (astral : 0x10000 ≤ c) :
    getHiSurrogate c = 0xD800 + (c - 0x10000) / 0x400 := by
  rw [getHiSurrogate, Nat.shiftRight_eq_div_pow]
  change c / 0x400 - 0x40 + 0xD800 = _
  omega

theorem getLoSurrogate_eq (c : Nat) : getLoSurrogate c = 0xDC00 + c % 0x400 := by
  have low : c &&& 0x3FF = c % 0x400 := Nat.and_two_pow_sub_one_eq_mod c 10
  rw [getLoSurrogate, low]
  exact or_high 0x37 10 _ (Nat.mod_lt c (by omega))

theorem unit_toNat_of_lt {n : Nat} (small : n < 0x10000) : (UInt16.ofNat n).toNat = n :=
  Nat.mod_eq_of_lt small

/-- A char that is no high surrogate stands for itself. -/
theorem utf16ToUtf8_cons {c : UInt16} (noSurrogate : isHiSurrogate c.toNat = false)
    (rest : List UInt16) : utf16ToUtf8 (c :: rest) = unicodeToUtf8 c.toNat ++ utf16ToUtf8 rest := by
  cases rest with
  | nil => exact (List.append_nil _).symm
  | cons c1 rest =>
      rw [utf16ToUtf8]
      exact if_neg (by simp [noSurrogate])

/-- The two kinds of encodings of a character correspond. -/
theorem utf16ToUtf8_utf16Char (char : Char) (rest : List UInt16) :
    utf16ToUtf8 (utf16Char char ++ rest) = String.utf8EncodeChar char ++ utf16ToUtf8 rest := by
  have bound := toNat_lt_or char
  by_cases bmp : char.toNat < 0x10000
  · have value : (UInt16.ofNat char.toNat).toNat = char.toNat := unit_toNat_of_lt bmp
    have noSurrogate : isHiSurrogate (UInt16.ofNat char.toNat).toNat = false := by
      rw [value, Bool.eq_false_iff, ne_eq, isHiSurrogate_iff]
      omega
    rw [utf16Char_one bmp]
    apply (utf16ToUtf8_cons noSurrogate rest).trans
    rw [value, unicodeToUtf8_toNat]
  · have hi : (UInt16.ofNat (0xD800 + (char.toNat - 0x10000) / 0x400)).toNat =
        0xD800 + (char.toNat - 0x10000) / 0x400 := unit_toNat_of_lt (by omega)
    have lo : (UInt16.ofNat (0xDC00 + char.toNat % 0x400)).toNat = 0xDC00 + char.toNat % 0x400 :=
      unit_toNat_of_lt (by omega)
    have whole : fromSurrogate (0xD800 + (char.toNat - 0x10000) / 0x400)
        (0xDC00 + char.toNat % 0x400) = char.toNat := by
      unfold fromSurrogate
      omega
    have isPair : isHiSurrogate (0xD800 + (char.toNat - 0x10000) / 0x400) = true ∧
        isLoSurrogate (0xDC00 + char.toNat % 0x400) = true := by
      rw [isHiSurrogate_iff, isLoSurrogate_iff]
      omega
    rw [utf16Char_two (by omega)]
    simp only [List.cons_append, List.nil_append, utf16ToUtf8, hi, lo, whole]
    exact (if_pos isPair).trans (congrArg (· ++ _) (unicodeToUtf8_toNat char))

/-- The UTF-16 of a text is turned into its UTF-8. -/
theorem utf16ToUtf8_utf16 (text : List Char) : utf16ToUtf8 (utf16 text) = utf8 text := by
  induction text with
  | nil => rfl
  | cons char text ih => rw [utf16_cons, utf16ToUtf8_utf16Char, ih, utf8_cons]

/-- A char of 8 bits is encoded as the same char of 16 bits. -/
theorem latin1ToUtf8_eq (c : UInt8) : latin1ToUtf8 c = unicodeToUtf8 c.toUInt16.toNat := by
  have small := c.toNat_lt
  have high : c.toNat < 0x800 := by omega
  have ascii : c < 0x80 ↔ c.toNat < 0x80 := UInt8.lt_iff_toNat_lt
  rw [latin1ToUtf8, unicodeToUtf8, UInt8.toNat_toUInt16]
  simp only [ascii, if_pos high]
  split <;> simp

theorem flatMap_latin1ToUtf8 (chars : List UInt8) :
    chars.flatMap latin1ToUtf8 = utf16ToUtf8 (chars.map (·.toUInt16)) := by
  induction chars with
  | nil => rfl
  | cons c chars ih =>
      have noSurrogate : isHiSurrogate c.toUInt16.toNat = false := by
        have small := c.toNat_lt
        rw [UInt8.toNat_toUInt16, Bool.eq_false_iff, ne_eq, isHiSurrogate_iff]
        omega
      rw [List.flatMap_cons, List.map_cons, utf16ToUtf8_cons noSurrogate, ih, latin1ToUtf8_eq]

theorem flatMap_latin1ToUtf8_of_ascii {chars : List UInt8}
    (ascii : chars.countP (0x80 ≤ ·) = 0) : chars.flatMap latin1ToUtf8 = chars := by
  induction chars with
  | nil => rfl
  | cons c chars ih =>
      have isAscii : c < 0x80 := by
        have := List.countP_eq_zero.mp ascii c (by simp)
        simpa [UInt8.not_le] using this
      have others : chars.countP (0x80 ≤ ·) = 0 := by
        have := List.countP_eq_zero.mp ascii
        exact List.countP_eq_zero.mpr fun other member => this other (by simp [member])
      rw [List.flatMap_cons, latin1ToUtf8, if_pos isAscii, ih others, List.singleton_append]

/-- What `JS_ToCStringLen2` gives depends on the chars alone, where they fit. -/
theorem toCStringLen_eq {string : JSString}
    (fits : string.isWide = true → string.units.length * 3 ≤ intMax) :
    toCStringLen string = some (utf16ToUtf8 string.units) := by
  cases string with
  | str8 chars =>
      rw [toCStringLen, JSString.units, ← flatMap_latin1ToUtf8]
      split
      · rename_i ascii
        rw [flatMap_latin1ToUtf8_of_ascii ascii]
      · rfl
  | str16 chars => exact if_neg (Nat.not_lt.mpr (fits rfl))

/-! ## Strings of texts -/

namespace JSString

def putChar (string : JSString) (char : Char) : JSString :=
  if char.toNat < 0x10000 then string.putc16 char.toNat
  else (string.putc16 (getHiSurrogate char.toNat)).putc16 (getLoSurrogate char.toNat)

def putText (string : JSString) (text : List Char) : JSString :=
  text.foldl putChar string

theorem units_putc16 (string : JSString) (c : Nat) :
    (string.putc16 c).units = string.units ++ [.ofNat c] := by
  cases string with
  | str16 chars => rfl
  | str8 chars =>
      simp only [putc16]
      split
      · rename_i small
        have same : (UInt8.ofNat c).toUInt16 = UInt16.ofNat c := by
          apply UInt16.toNat_inj.mp
          rw [UInt8.toNat_toUInt16, toNat_ofNat_of_lt small, unit_toNat_of_lt (by omega)]
        simp [units, same]
      · rfl

theorem isWide_putc16 (string : JSString) (c : Nat) :
    (string.putc16 c).isWide = (string.isWide || decide (0x100 ≤ c)) := by
  cases string with
  | str16 chars => rfl
  | str8 chars =>
      simp only [putc16]
      split
      · simp [isWide]
        omega
      · simp [isWide]
        omega

theorem units_putChar (string : JSString) (char : Char) :
    (string.putChar char).units = string.units ++ utf16Char char := by
  unfold putChar
  split
  · rename_i bmp
    rw [units_putc16, utf16Char_one bmp]
  · rw [units_putc16, units_putc16, utf16Char_two (by omega), getHiSurrogate_eq (by omega),
      getLoSurrogate_eq, List.append_assoc]
    rfl

theorem isWide_putChar (string : JSString) (char : Char) :
    (string.putChar char).isWide = (string.isWide || decide (0x100 ≤ char.toNat)) := by
  unfold putChar
  split
  · exact isWide_putc16 _ _
  · have low : 0x100 ≤ getLoSurrogate char.toNat := by
      rw [getLoSurrogate_eq]
      omega
    have wide : 0x100 ≤ char.toNat := by omega
    simp [isWide_putc16, low, wide]

theorem units_putText (string : JSString) (text : List Char) :
    (string.putText text).units = string.units ++ utf16 text := by
  induction text generalizing string with
  | nil => exact (List.append_nil _).symm
  | cons char text ih =>
      rw [putText, List.foldl_cons, ← putText, ih, units_putChar, utf16_cons, List.append_assoc]

theorem isWide_putText (string : JSString) (text : List Char) :
    (string.putText text).isWide = true ↔
      string.isWide = true ∨ ∃ char ∈ text, 0x100 ≤ char.toNat := by
  induction text generalizing string with
  | nil => simp [putText]
  | cons char text ih =>
      rw [putText, List.foldl_cons, ← putText, ih, isWide_putChar]
      simp [or_assoc]

end JSString

/-- A round of the loop takes a character. -/
theorem putUtf8_char (rounds : Nat) (string : JSString) (char : Char) (rest : Bytes) :
    putUtf8 (rounds + 1) string (String.utf8EncodeChar char ++ rest) =
      putUtf8 rounds (string.putChar char) rest := by
  have bound := toNat_lt_or char
  by_cases ascii : char.toNat < 0x80
  · have value : (UInt8.ofNat char.toNat).toNat = char.toNat := toNat_ofNat_of_lt (by omega)
    have isAscii : UInt8.ofNat char.toNat < 0x80 := by
      rw [UInt8.lt_iff_toNat_lt, value]
      exact ascii
    rw [utf8EncodeChar_one ascii, List.singleton_append, putUtf8, if_pos isAscii, value,
      JSString.putChar, if_pos (by omega)]
  · obtain ⟨first, tail, isCons⟩ :=
      List.exists_cons_of_ne_nil (String.utf8EncodeChar_ne_nil (c := char))
    have beyond : ¬ first < 0x80 :=
      le_of_mem_utf8EncodeChar (Nat.le_of_not_lt ascii) first (by simp [isCons])
    have decoded := unicodeFromUtf8_utf8EncodeChar char rest
    rw [isCons, List.cons_append] at decoded ⊢
    simp only [putUtf8, if_neg beyond, decoded, JSString.putChar]
    by_cases bmp : char.toNat < 0x10000
    · rw [if_pos bmp, if_pos bmp]
    · rw [if_neg bmp, if_pos (by omega), if_neg bmp]

theorem putUtf8_text (text : List Char) (rounds : Nat) (string : JSString) (rest : Bytes) :
    putUtf8 (text.length + rounds) string (utf8 text ++ rest) =
      putUtf8 rounds (string.putText text) rest := by
  induction text generalizing string with
  | nil => simp [JSString.putText]
  | cons char text ih =>
      have oneMore : (char :: text).length + rounds = text.length + rounds + 1 := by
        rw [List.length_cons]
        omega
      rw [oneMore, utf8_cons, List.append_assoc, putUtf8_char, ih]
      rfl

/-- A round of the loop takes a byte of ASCII. -/
theorem putUtf8_ascii {start : Bytes} (ascii : ∀ byte ∈ start, byte < 0x80) (rounds : Nat)
    (chars : List UInt8) (rest : Bytes) :
    putUtf8 (start.length + rounds) (.str8 chars) (start ++ rest) =
      putUtf8 rounds (.str8 (chars ++ start)) rest := by
  induction start generalizing chars with
  | nil => simp
  | cons byte start ih =>
      have oneMore : (byte :: start).length + rounds = start.length + rounds + 1 := by
        rw [List.length_cons]
        omega
      have isAscii : byte < 0x80 := ascii byte (by simp)
      have small : byte.toNat < 0x100 := byte.toNat_lt
      rw [oneMore, List.cons_append, putUtf8, if_pos isAscii, JSString.putc16]
      simp only [if_pos small, UInt8.ofNat_toNat]
      rw [ih fun other member => ascii other (by simp [member]), List.append_assoc,
        List.singleton_append]

/-- The string that `JS_NewStringLen` makes where it fits, from the first byte
on. -/
def decoded (buf : Bytes) : JSString :=
  putUtf8 ((asciiPrefix buf).length + buf.length) (.str8 []) buf

theorem asciiPrefix_append (buf : Bytes) :
    asciiPrefix buf ++ buf.drop (asciiPrefix buf).length = buf :=
  List.prefix_iff_eq_append.mp (List.takeWhile_prefix _)

theorem lt_of_mem_asciiPrefix (buf : Bytes) : ∀ byte ∈ asciiPrefix buf, byte < 0x80 := by
  intro byte member
  simpa using List.mem_takeWhile_imp member

theorem decoded_eq (buf : Bytes) :
    decoded buf =
      putUtf8 buf.length (.str8 (asciiPrefix buf)) (buf.drop (asciiPrefix buf).length) := by
  have rounds := putUtf8_ascii (lt_of_mem_asciiPrefix buf) buf.length []
    (buf.drop (asciiPrefix buf).length)
  rw [asciiPrefix_append] at rounds
  exact rounds

theorem decoded_of_ascii {buf : Bytes} (ascii : (asciiPrefix buf).length = buf.length) :
    decoded buf = .str8 buf := by
  have whole : asciiPrefix buf = buf :=
    (List.takeWhile_prefix _).eq_of_length ascii
  rw [decoded_eq, whole, List.drop_length]
  cases buf.length <;> rfl

/-- The string is made unless it is too long. -/
theorem newStringLen_eq (buf : Bytes) :
    newStringLen buf =
      if jsStringLenMax < (asciiPrefix buf).length then none
      else if (asciiPrefix buf).length = buf.length then some (decoded buf)
      else if intMax < buf.length then none
      else bufferEnd buf.length (decoded buf) := by
  rw [newStringLen, decoded_eq]
  split
  · rfl
  · split
    · rename_i ascii
      rw [← decoded_eq, decoded_of_ascii ascii]
    · rfl

theorem eq_decoded_of_newStringLen {buf : Bytes} {string : JSString}
    (made : newStringLen buf = some string) : string = decoded buf := by
  rw [newStringLen_eq, bufferEnd] at made
  split at made
  · cases made
  split at made
  · exact (Option.some.inj made).symm
  split at made
  · cases made
  split at made
  · cases made
  · exact (Option.some.inj made).symm

/-- A round of the loop appends a char at least. -/
theorem putUtf8_cons (rounds : Nat) (string : JSString) (byte : UInt8) (rest : Bytes) :
    ∃ grown next, string.units.length < grown.units.length ∧
      putUtf8 (rounds + 1) string (byte :: rest) = putUtf8 rounds grown next := by
  have grows : ∀ (string : JSString) (c : Nat),
      string.units.length < (string.putc16 c).units.length := by
    intro string c
    rw [JSString.units_putc16, List.length_append]
    exact Nat.lt_succ_self _
  simp only [putUtf8]
  split
  · exact ⟨_, _, grows _ _, rfl⟩
  · split
    · split
      · exact ⟨_, _, grows _ _, rfl⟩
      · split
        · exact ⟨_, _, (grows _ _).trans (grows _ _), rfl⟩
        · exact ⟨_, _, grows _ _, rfl⟩
    · exact ⟨_, _, grows _ _, rfl⟩

theorem length_le_putUtf8 (rounds : Nat) (string : JSString) (bytes : Bytes) :
    string.units.length ≤ (putUtf8 rounds string bytes).units.length := by
  induction rounds generalizing string bytes with
  | zero => exact Nat.le_refl _
  | succ rounds ih =>
      cases bytes with
      | nil => exact Nat.le_refl _
      | cons byte rest =>
          obtain ⟨grown, next, longer, isNext⟩ := putUtf8_cons rounds string byte rest
          rw [isNext]
          exact longer.le.trans (ih grown next)

/-- Bytes that are left add something. -/
theorem length_lt_putUtf8 {rounds : Nat} {bytes : Bytes} (left : bytes ≠ [])
    (enough : bytes.length ≤ rounds) (string : JSString) :
    string.units.length < (putUtf8 rounds string bytes).units.length := by
  cases bytes with
  | nil => exact (left rfl).elim
  | cons byte rest =>
      cases rounds with
      | zero => simp at enough
      | succ rounds =>
          obtain ⟨grown, next, longer, isNext⟩ := putUtf8_cons rounds string byte rest
          rw [isNext]
          exact longer.trans_le (length_le_putUtf8 rounds grown next)

/-! ## Texts that survive -/

/-- The characters come first in what is made of a text and other bytes. -/
theorem decoded_utf8_append (text : List Char) (more : Bytes) :
    ∃ rounds, more.length ≤ rounds ∧
      decoded (utf8 text ++ more) = putUtf8 rounds ((JSString.str8 []).putText text) more := by
  have short := length_le_utf8 text
  obtain ⟨rounds, isRounds⟩ : ∃ rounds,
      (asciiPrefix (utf8 text ++ more)).length + (utf8 text ++ more).length =
        text.length + rounds := by
    refine ⟨(asciiPrefix (utf8 text ++ more)).length + (utf8 text ++ more).length - text.length, ?_⟩
    rw [List.length_append]
    omega
  refine ⟨rounds, ?_, ?_⟩
  · rw [List.length_append] at isRounds
    omega
  · rw [decoded, isRounds, putUtf8_text]

theorem decoded_utf8 (text : List Char) :
    decoded (utf8 text) = (JSString.str8 []).putText text := by
  obtain ⟨rounds, _, isText⟩ := decoded_utf8_append text []
  rw [List.append_nil] at isText
  rw [isText]
  cases rounds <;> rfl

/-- The string of a text has the UTF-16 of the text. -/
theorem units_decoded_utf8 (text : List Char) : (decoded (utf8 text)).units = utf16 text := by
  rw [decoded_utf8, JSString.units_putText]
  rfl

/-- A text with other bytes after it is longer. -/
theorem units_decoded_ne {more : Bytes} (left : more ≠ []) (text : List Char) :
    (decoded (utf8 text ++ more)).units ≠ utf16 text := by
  obtain ⟨rounds, enough, isText⟩ := decoded_utf8_append text more
  have longer := length_lt_putUtf8 left enough ((JSString.str8 []).putText text)
  rw [← isText, ← decoded_utf8, units_decoded_utf8] at longer
  intro same
  rw [same] at longer
  exact Nat.lt_irrefl _ longer

/-- All characters are below U+0100. -/
def IsLatin1 (text : List Char) : Prop :=
  ∀ char ∈ text, char.toNat < 0x100

theorem isWide_decoded_utf8 (text : List Char) :
    (decoded (utf8 text)).isWide = true ↔ ¬ IsLatin1 text := by
  rw [decoded_utf8, JSString.isWide_putText]
  simp [JSString.isWide, IsLatin1]

/-- `JS_NewStringLen` makes a string of the text: the ASCII characters at its
start are no more than a string can have, and, if there are others, the sizes
of the buffer are of type `int`. -/
def Makeable (text : List Char) : Prop :=
  (asciiPrefix (utf8 text)).length ≤ jsStringLenMax ∧
    ((asciiPrefix (utf8 text)).length = (utf8 text).length ∨
      (utf8 text).length ≤ intMax ∧ (IsLatin1 text ∨ (utf8 text).length * 2 ≤ intMax))

/-- `JS_ToCStringLen2` can give the UTF-8 of the string as well. -/
def Fits (text : List Char) : Prop :=
  Makeable text ∧ (IsLatin1 text ∨ (utf16 text).length * 3 ≤ intMax)

theorem newStringLen_utf8_eq_some_iff (text : List Char) :
    newStringLen (utf8 text) = some (decoded (utf8 text)) ↔ Makeable text := by
  have wide := isWide_decoded_utf8 text
  have size : (utf8 text).length <<< 1 = (utf8 text).length * 2 := Nat.shiftLeft_eq _ 1
  rw [newStringLen_eq, bufferEnd, Makeable, Option.ite_none_left_eq_some, Nat.not_lt]
  refine and_congr_right fun _ => ?_
  by_cases ascii : (asciiPrefix (utf8 text)).length = (utf8 text).length
  · simp only [ascii, if_true, true_or]
  · simp only [ascii, if_false, false_or, Option.ite_none_left_eq_some, Nat.not_lt, and_true,
      wide, size, not_and]
    exact and_congr_right fun _ => or_iff_not_imp_left.symm

/-- A string that is made of a text is the one of the text. -/
theorem newStringLen_utf8 {text : List Char} (makeable : Makeable text) :
    newStringLen (utf8 text) = some (decoded (utf8 text)) :=
  (newStringLen_utf8_eq_some_iff text).mpr makeable

theorem newStringLen_utf8_eq_none {text : List Char} (tooLong : ¬ Makeable text) :
    newStringLen (utf8 text) = none := by
  cases made : newStringLen (utf8 text) with
  | none => rfl
  | some string =>
      obtain rfl := eq_decoded_of_newStringLen made
      exact (tooLong ((newStringLen_utf8_eq_some_iff text).mp made)).elim

theorem toCStringLen_of_long {string : JSString} (wide : string.isWide = true)
    (tooLong : intMax < string.units.length * 3) : toCStringLen string = none := by
  cases string with
  | str8 chars => cases wide
  | str16 chars => exact if_pos tooLong

/-- `JS_ToCStringLen2` has room for the UTF-8 of the string. -/
def JSString.HasRoom (string : JSString) : Prop :=
  string.isWide = true → string.units.length * 3 ≤ intMax

instance (string : JSString) : Decidable string.HasRoom :=
  inferInstanceAs (Decidable (_ → _))

theorem toCStringLen_of_not_hasRoom {string : JSString} (noRoom : ¬ string.HasRoom) :
    toCStringLen string = none := by
  obtain ⟨wide, tooLong⟩ := Classical.not_imp.mp noRoom
  exact toCStringLen_of_long wide (Nat.lt_of_not_le tooLong)

/-- A text that fits is turned into a string and back, another one is lost. -/
theorem toCStringLen_newStringLen_utf8 (text : List Char) :
    (Fits text ∧ (newStringLen (utf8 text)).bind toCStringLen = some (utf8 text)) ∨
      (¬ Fits text ∧ (newStringLen (utf8 text)).bind toCStringLen = none) := by
  by_cases makeable : Makeable text
  · rw [newStringLen_utf8 makeable, Option.bind_some]
    by_cases short : IsLatin1 text ∨ (utf16 text).length * 3 ≤ intMax
    · refine Or.inl ⟨⟨makeable, short⟩, ?_⟩
      rw [toCStringLen_eq, units_decoded_utf8, utf16ToUtf8_utf16]
      rw [isWide_decoded_utf8, units_decoded_utf8]
      exact short.resolve_left
    · refine Or.inr ⟨fun fits => short fits.2, ?_⟩
      obtain ⟨beyond, tooLong⟩ := not_or.mp short
      apply toCStringLen_of_long ((isWide_decoded_utf8 text).mpr beyond)
      rw [units_decoded_utf8]
      exact Nat.lt_of_not_le tooLong
  · refine Or.inr ⟨fun fits => makeable fits.1, ?_⟩
    rw [newStringLen_utf8_eq_none makeable, Option.bind_none]

end Jib.QuickJS
