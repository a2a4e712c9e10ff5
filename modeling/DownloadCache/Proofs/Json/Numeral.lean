import DownloadCache.Json.Numeral
import DownloadCache.Proofs.Json.Quotation

/-!
# Counts that are written and read

A count that is written in decimal digits is read as that count wherever its digits end
(`readNumber_writeCount`).  Digits are read from the left and written from the right, so the proof
goes by the last digit: all digits before it have been read as the tenth part of the count
(`readUnsigned_digits`), and no part of a word is beyond a word.
-/

namespace DownloadCache.Json

set_option autoImplicit false

open Text.Utf8

/-! ## Digits -/

/-- The octet of a decimal digit. -/
def digitOctet (digit : Nat) : UInt8 :=
  UInt8.ofNat (digit + 48)

theorem encode_digitChar {digit : Nat} (small : digit < 10) :
    encode [digit.digitChar] = [digitOctet digit] := by
  interval_cases digit <;> rfl

theorem isDigit_digitOctet {digit : Nat} (small : digit < 10) :
    isDigit (digitOctet digit) = true := by
  interval_cases digit <;> rfl

theorem toNat_digitOctet {digit : Nat} (small : digit < 10) :
    (digitOctet digit).toNat - 0x30 = digit := by
  interval_cases digit <;> rfl

/-- The digits of a number stay in one line. -/
theorem inline_digits (value : Nat) : Inline (Decimal.digits value) := by
  intro character member
  have digit := Nat.isDigit_of_mem_toDigits (by decide) (by decide) member
  simp only [Char.isDigit, Bool.and_eq_true, decide_eq_true_eq] at digit
  have lower : ('0' : Char).val.toNat ≤ character.val.toNat := UInt32.le_iff_toNat_le.mp digit.1
  exact Nat.le_trans (by decide) lower

/-- The digits of a number end with the last one, behind those of its tenth part. -/
theorem encode_digits_of_le {value : Nat} (large : 10 ≤ value) :
    encode (Decimal.digits value) =
      encode (Decimal.digits (value / 10)) ++ [digitOctet (value % 10)] := by
  rw [Decimal.digits, Nat.toDigits_of_base_le (by decide) large, encode_append,
    encode_digitChar (Nat.mod_lt value (by decide))]
  rfl

theorem encode_digits_of_lt {value : Nat} (small : value < 10) :
    encode (Decimal.digits value) = [digitOctet value] := by
  rw [Decimal.digits, Nat.toDigits_of_lt_base small, encode_digitChar small]

/-- The octets of a number start with a digit. -/
theorem exists_encode_digits (value : Nat) :
    ∃ digit tail, digit < 10 ∧ encode (Decimal.digits value) = digitOctet digit :: tail := by
  induction value using Nat.strongRecOn with
  | ind value ih =>
      by_cases small : value < 10
      · exact ⟨value, [], small, encode_digits_of_lt small⟩
      · obtain ⟨digit, tail, first, octets⟩ := ih (value / 10) (by omega)
        rw [encode_digits_of_le (Nat.not_lt.mp small), octets]
        exact ⟨digit, _, first, List.cons_append⟩

/-! ## Reading -/

/-- Whether octets go on in a way that ends a number: with a comma or a closing brace. -/
def Delimited (rest : Octets) : Prop :=
  ∃ octet further, rest = octet :: further ∧ (octet = comma ∨ octet = closeBrace)

theorem delimited_comma (rest : Octets) : Delimited (comma :: rest) :=
  ⟨comma, rest, rfl, .inl rfl⟩

theorem delimited_closeBrace (rest : Octets) : Delimited (closeBrace :: rest) :=
  ⟨closeBrace, rest, rfl, .inr rfl⟩

/-- Where a number ends, its digits have given the whole of it. -/
theorem Delimited.readIntegerDigits {rest : Octets} (delimited : Delimited rest) (value : Nat) :
    readIntegerDigits false value rest = .ok (.count value.toUInt64, rest) := by
  obtain ⟨octet, further, rfl, rfl | rfl⟩ := delimited <;> rfl

/-- A digit other than zero starts a number. -/
theorem readUnsigned_digitOctet (isNegative : Bool) {digit : Nat} (some : 0 < digit)
    (small : digit < 10) (rest : Octets) :
    readUnsigned isNegative (digitOctet digit :: rest) =
      readIntegerDigits isNegative digit rest := by
  interval_cases digit <;> rfl

/-- **The digits of a number are read as the number,** whatever follows them. -/
theorem readUnsigned_digits {value : Nat} (some : 0 < value) (word : value ≤ maxSignificand)
    (rest : Octets) :
    readUnsigned false (encode (Decimal.digits value) ++ rest) =
      readIntegerDigits false value rest := by
  induction value using Nat.strongRecOn generalizing rest with
  | ind value ih =>
      by_cases small : value < 10
      · rw [encode_digits_of_lt small, List.singleton_append,
          readUnsigned_digitOctet false some small]
      · have last : value % 10 < 10 := Nat.mod_lt value (by decide)
        have whole : value / 10 * 10 + value % 10 = value := by omega
        rw [encode_digits_of_le (Nat.not_lt.mp small), List.append_assoc, List.singleton_append,
          ih (value / 10) (by omega) (by omega) (by omega), readIntegerDigits,
          if_pos (isDigit_digitOctet last), toNat_digitOctet last]
        simp only [whole]
        rw [if_neg (Nat.not_lt.mpr word)]

/-- **A count that is written is read as that count** where its digits end. -/
theorem readNumber_writeCount (value : UInt64) {rest : Octets} (delimited : Delimited rest) :
    ∃ digit further, digit < 10 ∧
      encode (writeCount value) ++ rest = digitOctet digit :: further ∧
      readNumber (digitOctet digit) further = .ok (.count value, rest) := by
  obtain ⟨digit, tail, small, octets⟩ := exists_encode_digits value.toNat
  have whole : encode (writeCount value) ++ rest = digitOctet digit :: (tail ++ rest) := by
    rw [writeCount, octets, List.cons_append]
  have unsigned : digitOctet digit ≠ minus := by interval_cases digit <;> decide
  refine ⟨digit, _, small, whole, ?_⟩
  rw [readNumber, if_neg unsigned, ← whole, writeCount]
  rcases Nat.eq_zero_or_pos value.toNat with zero | some
  · obtain ⟨octet, further, rfl, mark⟩ := delimited
    have same : value = 0 := UInt64.toNat_inj.mp zero
    rw [same]
    rcases mark with rfl | rfl <;> rfl
  · have word : value.toNat ≤ maxSignificand := Nat.le_of_lt_succ value.toNat_lt
    rw [readUnsigned_digits some word, delimited.readIntegerDigits]
    exact congrArg (fun value => Except.ok (Number.count value, rest)) UInt64.ofNat_toNat

end DownloadCache.Json
