import Jib.QuickJSAtoms

/-!
# Atoms that are numbers

A string that is a decimal number below 2^31 is not in the table: its atom is
the number with a tag.  A number is written in one way only, so that the number
of an atom gives its chars and the chars the number.
-/

namespace Jib.QuickJS

/-- The chars of a number. -/
def decimal (n : Nat) : List UInt16 :=
  (printUInt n).map (·.toUInt16)

def digitUnit (digit : Nat) : UInt16 :=
  .ofNat (48 + digit)

theorem decimal_of_lt {digit : Nat} (isDigit : digit < 10) : decimal digit = [digitUnit digit] := by
  have digits : ∀ digit < 10,
      UInt8.toUInt16 (.ofNat (Nat.digitChar digit).toNat) = digitUnit digit := by decide
  rw [decimal, printUInt, Nat.toDigits_of_lt_base isDigit, List.map_singleton, List.map_singleton,
    digits digit isDigit]

theorem decimal_append {n digit : Nat} (positive : 0 < n) (isDigit : digit < 10) :
    decimal (n * 10 + digit) = decimal n ++ [digitUnit digit] := by
  rw [← decimal_of_lt isDigit, decimal, decimal, decimal, printUInt, printUInt, printUInt,
    Nat.mul_comm, ← Nat.toDigits_append_toDigits (by decide) positive isDigit]
  simp

theorem toNat_digitUnit {digit : Nat} (isDigit : digit < 10) :
    (digitUnit digit).toNat = 48 + digit := by
  rw [digitUnit, UInt16.toNat_ofNat']
  omega

theorem isNum_iff (c : UInt16) : isNum c = true ↔ ∃ digit < 10, c = digitUnit digit := by
  simp only [isNum, Bool.and_eq_true, decide_eq_true_eq, UInt16.le_iff_toNat_le]
  constructor
  · rintro ⟨atLeast, atMost⟩
    have low : (48 : UInt16).toNat = 48 := rfl
    have high : (57 : UInt16).toNat = 57 := rfl
    refine ⟨c.toNat - 48, by omega, ?_⟩
    rw [← UInt16.toNat_inj, toNat_digitUnit (by omega)]
    omega
  · rintro ⟨digit, isDigit, rfl⟩
    rw [toNat_digitUnit isDigit]
    exact ⟨Nat.le_add_right 48 digit, by change 48 + digit ≤ 57; omega⟩

/-- What chars say after a number. -/
def decimalValue (n : Nat) (chars : List UInt16) : Nat :=
  chars.foldl (fun n c => n * 10 + (c.toNat - 48)) n

theorem le_decimalValue (n : Nat) (chars : List UInt16) : n ≤ decimalValue n chars := by
  induction chars generalizing n with
  | nil => exact le_rfl
  | cons c chars ih => exact (by omega : n ≤ n * 10 + (c.toNat - 48)).trans (ih _)

theorem decimalValue_append (n : Nat) (front chars : List UInt16) :
    decimalValue n (front ++ chars) = decimalValue (decimalValue n front) chars :=
  List.foldl_append

theorem decimalValue_decimal (n : Nat) : decimalValue 0 (decimal n) = n := by
  induction n using Nat.strongRecOn with
  | ind n ih =>
      by_cases isDigit : n < 10
      · simp [decimal_of_lt isDigit, decimalValue, toNat_digitUnit isDigit]
      · have split : n / 10 * 10 + n % 10 = n := by omega
        have digit : n % 10 < 10 := by omega
        have fewer := ih (n / 10) (by omega)
        rw [← split, decimal_append (by omega) digit, decimalValue_append, fewer]
        simp [decimalValue, toNat_digitUnit digit]

theorem decimal_injective : Function.Injective decimal := by
  intro n m same
  rw [← decimalValue_decimal n, same, decimalValue_decimal]

theorem isNum_of_mem_decimal {n : Nat} {c : UInt16} (member : c ∈ decimal n) : isNum c = true := by
  induction n using Nat.strongRecOn with
  | ind n ih =>
      by_cases isDigit : n < 10
      · rw [decimal_of_lt isDigit, List.mem_singleton] at member
        exact (isNum_iff c).mpr ⟨n, isDigit, member⟩
      · have split : n / 10 * 10 + n % 10 = n := by omega
        have digit : n % 10 < 10 := by omega
        rw [← split, decimal_append (by omega) digit, List.mem_append, List.mem_singleton] at member
        exact member.elim (ih (n / 10) (by omega)) fun same => (isNum_iff c).mpr ⟨_, digit, same⟩

theorem addDigit_digitUnit {n digit : Nat} (isDigit : digit < 10) :
    addDigit n (digitUnit digit) =
      if n * 10 + digit < 2 ^ 32 then some (n * 10 + digit) else none := by
  rw [addDigit, if_pos ((isNum_iff _).mpr ⟨digit, isDigit, rfl⟩), toNat_digitUnit isDigit,
    Nat.add_sub_cancel_left]
  simp only [Nat.shiftRight_eq_div_pow, ne_eq, Nat.div_eq_zero_iff]
  split <;> split <;> first | rfl | omega

/-- The loop of `is_num_string` reads on where the chars go on with a number. -/
theorem foldlM_addDigit {chars : List UInt16} {n m : Nat} (positive : 0 < n) (small : n < 2 ^ 32) :
    chars.foldlM addDigit n = some m ↔ m < 2 ^ 32 ∧ decimal m = decimal n ++ chars := by
  induction chars generalizing n with
  | nil =>
      simp only [List.foldlM_nil, Option.pure_def, Option.some_inj, List.append_nil,
        decimal_injective.eq_iff]
      constructor
      · rintro rfl
        exact ⟨small, rfl⟩
      · exact fun same => same.2.symm
  | cons c chars ih =>
      rw [List.foldlM_cons]
      cases isC : isNum c with
      | false =>
          have stops : addDigit n c = none := by rw [addDigit, isC]; rfl
          rw [stops]
          refine iff_of_false (by simp) fun same => ?_
          have member : c ∈ decimal m := by rw [same.2]; simp
          simp [isNum_of_mem_decimal member] at isC
      | true =>
          obtain ⟨digit, isDigit, rfl⟩ := (isNum_iff c).mp isC
          have next : decimal n ++ digitUnit digit :: chars =
              decimal (n * 10 + digit) ++ chars := by
            rw [decimal_append positive isDigit, List.append_assoc, List.singleton_append]
          rw [addDigit_digitUnit isDigit, next]
          split
          · next fits => exact ih (by omega) fits
          · next tooLarge =>
              refine iff_of_false (by simp) fun same => tooLarge ?_
              refine lt_of_le_of_lt ?_ same.1
              rw [← decimalValue_decimal m, same.2, decimalValue_append, decimalValue_decimal]
              exact le_decimalValue _ chars

theorem length_decimal_le {n : Nat} (small : n < 2 ^ 32) : (decimal n).length ≤ 10 := by
  rw [decimal, printUInt, List.length_map, List.length_map,
    Nat.length_toDigits_le_iff (by decide) (by decide)]
  omega

theorem decimal_head {n : Nat} (positive : 0 < n) :
    ∃ digit chars, 0 < digit ∧ digit < 10 ∧ decimal n = digitUnit digit :: chars := by
  induction n using Nat.strongRecOn with
  | ind n ih =>
      by_cases isDigit : n < 10
      · exact ⟨n, [], positive, isDigit, decimal_of_lt isDigit⟩
      · have split : n / 10 * 10 + n % 10 = n := by omega
        obtain ⟨digit, chars, notZero, isFirst, same⟩ := ih (n / 10) (by omega) (by omega)
        refine ⟨digit, chars ++ [digitUnit (n % 10)], notZero, isFirst, ?_⟩
        rw [← split, decimal_append (by omega) (by omega), same, split, List.cons_append]

/-- `is_num_string` takes the numbers below 2^32 in the way they are written. -/
theorem isNumString_eq_some {p : JSString} {n : Nat} :
    isNumString p = some n ↔ n < 2 ^ 32 ∧ p.units = decimal n := by
  unfold isNumString
  cases p.units with
  | nil =>
      refine iff_of_false (by simp) fun same => ?_
      have short := congrArg List.length same.2
      have some_ : 0 < (Nat.toDigits 10 n).length := Nat.length_toDigits_pos
      simp only [decimal, printUInt, List.length_nil, List.length_map] at short
      omega
  | cons c chars =>
      dsimp only
      by_cases isLong : 10 < (c :: chars).length
      · rw [if_pos isLong]
        refine iff_of_false (by simp) fun same => ?_
        have short := length_decimal_le same.1
        rw [← same.2] at short
        omega
      rw [if_neg isLong]
      cases isC : isNum c with
      | false =>
          refine iff_of_false (by simp) fun same => ?_
          have member : c ∈ decimal n := by rw [← same.2]; exact List.mem_cons_self
          simp [isNum_of_mem_decimal member] at isC
      | true =>
          obtain ⟨digit, isDigit, rfl⟩ := (isNum_iff c).mp isC
          rw [if_pos rfl]
          rcases Nat.eq_zero_or_pos digit with rfl | positive
          · have onlyZero : digitUnit 0 :: chars = decimal n ↔ chars = [] ∧ n = 0 := by
              constructor
              · intro same
                rcases Nat.eq_zero_or_pos n with rfl | notZero
                · rw [decimal_of_lt (by decide)] at same
                  exact ⟨(List.cons_inj_right _).mp same, rfl⟩
                · obtain ⟨first, rest, isFirst, isDigit, isHead⟩ := decimal_head notZero
                  have heads := congrArg UInt16.toNat (List.cons.inj (same.trans isHead)).1
                  rw [toNat_digitUnit isDigit, toNat_digitUnit (by decide)] at heads
                  omega
              · rintro ⟨rfl, rfl⟩
                exact (decimal_of_lt (by decide)).symm
            rw [if_pos (by decide : digitUnit 0 = 48), onlyZero]
            by_cases isEmpty : chars = []
            · simp only [isEmpty, ne_eq, not_true_eq_false, if_false, Option.some_inj, true_and]
              constructor
              · rintro rfl
                exact ⟨by decide, rfl⟩
              · exact fun same => same.2.symm
            · simp [isEmpty]
          · have notZero : digitUnit digit ≠ 48 := by
              intro same
              have values := congrArg UInt16.toNat same
              rw [toNat_digitUnit isDigit] at values
              have zero : (48 : UInt16).toNat = 48 := rfl
              omega
            rw [if_neg notZero, toNat_digitUnit isDigit, Nat.add_sub_cancel_left,
              foldlM_addDigit positive (by omega), decimal_of_lt isDigit, List.singleton_append]
            exact and_congr_right fun _ => eq_comm

theorem lt_of_mem_printUInt {n : Nat} {byte : UInt8} (member : byte ∈ printUInt n) :
    byte < 0x80 := by
  have isDigit := isNum_of_mem_decimal (List.mem_map_of_mem (f := (·.toUInt16)) member)
  simp only [isNum, Bool.and_eq_true, decide_eq_true_eq, UInt16.le_iff_toNat_le,
    UInt8.toNat_toUInt16] at isDigit
  have high : (57 : UInt16).toNat = 57 := rfl
  have bound : (0x80 : UInt8).toNat = 0x80 := rfl
  rw [UInt8.lt_iff_toNat_lt]
  omega

/-- The string of a number can always be made. -/
theorem newStringLen_printUInt {n : Nat} (small : n < 2 ^ 32) :
    newStringLen (printUInt n) = some (.str8 (printUInt n)) := by
  have whole : asciiPrefix (printUInt n) = printUInt n := by
    apply List.takeWhile_eq_self_iff.mpr
    intro byte member
    simpa using lt_of_mem_printUInt member
  have short : (printUInt n).length ≤ 10 := by
    simpa [decimal] using length_decimal_le small
  have max : jsStringLenMax = 2 ^ 30 - 1 := rfl
  rw [newStringLen, whole, if_neg (by omega), if_pos rfl]

end Jib.QuickJS
