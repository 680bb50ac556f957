import Mathlib.Data.List.Basic

/-!
# UTF-8 and UTF-16

A text is a list of characters.  The encoding of a single character in UTF-8
is the one of the standard library; this file gives it by the number of its
bytes, and puts UTF-16 beside it.
-/

namespace UnicodeText

/-- The UTF-8 form of a text. -/
def utf8 (text : List Char) : List UInt8 :=
  text.flatMap String.utf8EncodeChar

/-- The UTF-16 form of a character. -/
def utf16Char (char : Char) : List UInt16 :=
  if char.toNat < 0x10000 then [.ofNat char.toNat]
  else [.ofNat (0xD800 + (char.toNat - 0x10000) / 0x400), .ofNat (0xDC00 + char.toNat % 0x400)]

/-- The UTF-16 form of a text. -/
def utf16 (text : List Char) : List UInt16 :=
  text.flatMap utf16Char

@[simp]
theorem utf8_nil : utf8 [] = [] :=
  rfl

@[simp]
theorem utf8_cons (char : Char) (text : List Char) :
    utf8 (char :: text) = String.utf8EncodeChar char ++ utf8 text :=
  rfl

@[simp]
theorem utf16_nil : utf16 [] = [] :=
  rfl

@[simp]
theorem utf16_cons (char : Char) (text : List Char) :
    utf16 (char :: text) = utf16Char char ++ utf16 text :=
  rfl

/-! ## Single characters -/

section

variable {char : Char}

/-- No character is a surrogate. -/
theorem toNat_lt_or (char : Char) :
    char.toNat < 0xD800 ∨ 0xE000 ≤ char.toNat ∧ char.toNat < 0x110000 := by
  have valid := char.valid
  rw [UInt32.isValidChar, Nat.isValidChar] at valid
  change char.val.toNat < _ ∨ _ ≤ char.val.toNat ∧ char.val.toNat < _
  omega

theorem utf8EncodeChar_one (ascii : char.toNat < 0x80) :
    String.utf8EncodeChar char = [.ofNat char.toNat] := by
  have small : char.val.toNat ≤ 0x7F := Nat.le_of_lt_succ ascii
  rw [String.utf8EncodeChar]
  exact if_pos small

theorem utf8EncodeChar_two (low : 0x80 ≤ char.toNat) (high : char.toNat < 0x800) :
    String.utf8EncodeChar char =
      [.ofNat (0xC0 + char.toNat / 0x40), .ofNat (0x80 + char.toNat % 0x40)] := by
  change 0x80 ≤ char.val.toNat at low
  change char.val.toNat < 0x800 at high
  have first : char.val.toNat / 0x40 % 0x20 + 0xC0 = 0xC0 + char.val.toNat / 0x40 := by omega
  have second : char.val.toNat % 0x40 + 0x80 = 0x80 + char.val.toNat % 0x40 := by omega
  simp only [String.utf8EncodeChar]
  rw [if_neg (by omega), if_pos (by omega), first, second]
  rfl

theorem utf8EncodeChar_three (low : 0x800 ≤ char.toNat) (high : char.toNat < 0x10000) :
    String.utf8EncodeChar char =
      [.ofNat (0xE0 + char.toNat / 0x1000), .ofNat (0x80 + char.toNat / 0x40 % 0x40),
        .ofNat (0x80 + char.toNat % 0x40)] := by
  change 0x800 ≤ char.val.toNat at low
  change char.val.toNat < 0x10000 at high
  have first : char.val.toNat / 4096 % 0x10 + 0xE0 = 0xE0 + char.val.toNat / 0x1000 := by omega
  have second : char.val.toNat / 64 % 0x40 + 0x80 = 0x80 + char.val.toNat / 0x40 % 0x40 := by
    omega
  have third : char.val.toNat % 0x40 + 0x80 = 0x80 + char.val.toNat % 0x40 := by omega
  simp only [String.utf8EncodeChar]
  rw [if_neg (by omega), if_neg (by omega), if_pos (by omega), first, second, third]
  rfl

theorem utf8EncodeChar_four (low : 0x10000 ≤ char.toNat) :
    String.utf8EncodeChar char =
      [.ofNat (0xF0 + char.toNat / 0x40000), .ofNat (0x80 + char.toNat / 0x1000 % 0x40),
        .ofNat (0x80 + char.toNat / 0x40 % 0x40), .ofNat (0x80 + char.toNat % 0x40)] := by
  have bound := toNat_lt_or char
  change 0x10000 ≤ char.val.toNat at low
  change char.val.toNat < 0xD800 ∨ 0xE000 ≤ char.val.toNat ∧ char.val.toNat < 0x110000 at bound
  have first : char.val.toNat / 262144 % 0x08 + 0xF0 = 0xF0 + char.val.toNat / 0x40000 := by
    omega
  have second : char.val.toNat / 4096 % 0x40 + 0x80 = 0x80 + char.val.toNat / 0x1000 % 0x40 := by
    omega
  have third : char.val.toNat / 64 % 0x40 + 0x80 = 0x80 + char.val.toNat / 0x40 % 0x40 := by
    omega
  have fourth : char.val.toNat % 0x40 + 0x80 = 0x80 + char.val.toNat % 0x40 := by omega
  simp only [String.utf8EncodeChar]
  rw [if_neg (by omega), if_neg (by omega), if_neg (by omega), first, second, third, fourth]
  rfl

theorem le_of_mem_utf8EncodeChar (beyond : 0x80 ≤ char.toNat) :
    ∀ byte ∈ String.utf8EncodeChar char, ¬ byte < 0x80 := by
  have bound := toNat_lt_or char
  have notAscii : ∀ n, 0x80 ≤ n → n < 0x100 → ¬ UInt8.ofNat n < 0x80 := by
    intro n low high
    have value : (UInt8.ofNat n).toNat = n := Nat.mod_eq_of_lt high
    rw [UInt8.lt_iff_toNat_lt, value]
    exact Nat.not_lt.mpr low
  by_cases two : char.toNat < 0x800
  · rw [utf8EncodeChar_two beyond two]
    simp only [List.forall_mem_cons, List.not_mem_nil, false_imp_iff, implies_true, and_true]
    exact ⟨notAscii _ (by omega) (by omega), notAscii _ (by omega) (by omega)⟩
  by_cases three : char.toNat < 0x10000
  · rw [utf8EncodeChar_three (by omega) three]
    simp only [List.forall_mem_cons, List.not_mem_nil, false_imp_iff, implies_true, and_true]
    exact ⟨notAscii _ (by omega) (by omega), notAscii _ (by omega) (by omega),
      notAscii _ (by omega) (by omega)⟩
  · rw [utf8EncodeChar_four (by omega)]
    simp only [List.forall_mem_cons, List.not_mem_nil, false_imp_iff, implies_true, and_true]
    exact ⟨notAscii _ (by omega) (by omega), notAscii _ (by omega) (by omega),
      notAscii _ (by omega) (by omega), notAscii _ (by omega) (by omega)⟩

theorem zero_mem_utf8EncodeChar_iff (char : Char) :
    0 ∈ String.utf8EncodeChar char ↔ char.toNat = 0 := by
  by_cases ascii : char.toNat < 0x80
  · have value : (UInt8.ofNat char.toNat).toNat = char.toNat := Nat.mod_eq_of_lt (by omega)
    rw [utf8EncodeChar_one ascii, List.mem_singleton, eq_comm, ← UInt8.toNat_inj, value]
    rfl
  · constructor
    · intro isZero
      exact (le_of_mem_utf8EncodeChar (Nat.le_of_not_lt ascii) 0 isZero (by decide)).elim
    · intro isZero
      omega

theorem utf16Char_one (bmp : char.toNat < 0x10000) :
    utf16Char char = [.ofNat char.toNat] :=
  if_pos bmp

theorem utf16Char_two (astral : 0x10000 ≤ char.toNat) :
    utf16Char char =
      [.ofNat (0xD800 + (char.toNat - 0x10000) / 0x400), .ofNat (0xDC00 + char.toNat % 0x400)] :=
  if_neg (by omega)

theorem length_utf16Char_le (char : Char) :
    (utf16Char char).length ≤ (String.utf8EncodeChar char).length := by
  by_cases bmp : char.toNat < 0x10000
  · rw [utf16Char_one bmp, String.length_utf8EncodeChar]
    exact char.utf8Size_pos
  · rw [utf16Char_two (by omega), utf8EncodeChar_four (by omega)]
    simp

theorem length_utf16Char_lt (beyond : 0x80 ≤ char.toNat) :
    (utf16Char char).length < (String.utf8EncodeChar char).length := by
  by_cases two : char.toNat < 0x800
  · rw [utf16Char_one (by omega), utf8EncodeChar_two beyond two]
    simp
  by_cases bmp : char.toNat < 0x10000
  · rw [utf16Char_one bmp, utf8EncodeChar_three (by omega) bmp]
    simp
  · rw [utf16Char_two (by omega), utf8EncodeChar_four (by omega)]
    simp

end

/-! ## Texts -/

theorem length_le_utf8 (text : List Char) : text.length ≤ (utf8 text).length := by
  induction text with
  | nil => exact Nat.le_refl 0
  | cons char text ih =>
      have first := char.utf8Size_pos
      rw [utf8_cons, List.length_append, List.length_cons, String.length_utf8EncodeChar]
      omega

theorem zero_mem_utf8_iff (text : List Char) : 0 ∈ utf8 text ↔ '\x00' ∈ text := by
  rw [utf8, List.mem_flatMap]
  constructor
  · rintro ⟨char, member, isZero⟩
    have same : '\x00' = char :=
      Char.toNat_inj.mp ((zero_mem_utf8EncodeChar_iff char).mp isZero).symm
    exact same ▸ member
  · intro member
    exact ⟨_, member, (zero_mem_utf8EncodeChar_iff _).mpr rfl⟩

/-- Up to the first zero byte there is the UTF-8 of the text up to U+0000. -/
theorem takeWhile_utf8 (text : List Char) :
    (utf8 text).takeWhile (· ≠ 0) = utf8 (text.takeWhile (·.toNat ≠ 0)) := by
  induction text with
  | nil => rfl
  | cons char text ih =>
      have isZero := zero_mem_utf8EncodeChar_iff char
      by_cases zero : char.toNat = 0
      · rw [utf8_cons, utf8EncodeChar_one (by omega), zero]
        simp [zero]
      · have noZero : ∀ byte ∈ String.utf8EncodeChar char, decide (byte ≠ 0) = true := by
          intro byte member
          rw [decide_eq_true_eq]
          rintro rfl
          exact zero (isZero.mp member)
        rw [utf8_cons, List.takeWhile_append_of_pos noZero, ih, List.takeWhile_cons]
        simp [zero]

/-- Nothing of the UTF-16 of a text is lost up to U+0000 exactly if there is none. -/
theorem utf16_takeWhile_eq_iff (text : List Char) :
    utf16 (text.takeWhile (·.toNat ≠ 0)) = utf16 text ↔ '\x00' ∉ text := by
  induction text with
  | nil => simp
  | cons char text ih =>
      by_cases zero : char.toNat = 0
      · obtain rfl : '\x00' = char := Char.toNat_inj.mp zero.symm
        simp [utf16Char]
      · have notZero : '\x00' ≠ char := by
          rintro rfl
          exact zero rfl
        rw [List.takeWhile_cons_of_pos (by simpa using zero), utf16_cons, utf16_cons,
          List.append_right_inj, ih, List.mem_cons, not_or]
        exact (and_iff_right notZero).symm

/-- A text has no more UTF-16 units than bytes. -/
theorem length_utf16_le (text : List Char) : (utf16 text).length ≤ (utf8 text).length := by
  induction text with
  | nil => exact Nat.le_refl 0
  | cons char text ih =>
      have first := length_utf16Char_le char
      rw [utf16_cons, utf8_cons, List.length_append, List.length_append]
      omega

theorem ascii_of_length_eq {text : List Char} (same : (utf16 text).length = (utf8 text).length) :
    ∀ char ∈ text, char.toNat < 0x80 := by
  induction text with
  | nil => simp
  | cons char text ih =>
      have first := length_utf16Char_le char
      have rest := length_utf16_le text
      rw [utf16_cons, utf8_cons, List.length_append, List.length_append] at same
      have ascii : char.toNat < 0x80 := by
        by_contra beyond
        have longer := length_utf16Char_lt (Nat.le_of_not_lt beyond)
        omega
      have others := ih (by omega)
      intro other member
      rcases List.mem_cons.mp member with rfl | member
      · exact ascii
      · exact others other member

theorem utf8_lt_of_ascii {text : List Char} (ascii : ∀ char ∈ text, char.toNat < 0x80) :
    ∀ byte ∈ utf8 text, byte < 0x80 := by
  intro byte member
  obtain ⟨char, charMem, byteMem⟩ := List.mem_flatMap.mp member
  have small := ascii char charMem
  have value : (UInt8.ofNat char.toNat).toNat = char.toNat := Nat.mod_eq_of_lt (by omega)
  rw [utf8EncodeChar_one small, List.mem_singleton] at byteMem
  rw [byteMem, UInt8.lt_iff_toNat_lt, value]
  exact small

end UnicodeText
