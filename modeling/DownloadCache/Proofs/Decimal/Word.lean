import DownloadCache.Decimal.Word
import Mathlib.Tactic.Common

/-!
# Decimal words as they are written

A decimal word is written as digits, at least one, with a plus sign in front or none (`Written`).
It is read as the number that the digits denote, leading zeros included, if that number is a word
(`readWord_eq_ok_iff`): the reader gives up at the first digit that takes the value beyond the
greatest word, and no digit behind it could have taken it back.
-/

namespace DownloadCache.Decimal

set_option autoImplicit false

/-! ## Digits -/

/-- Whether a text has nothing but decimal digits. -/
def AllDigits (text : List Char) : Prop :=
  ∀ character ∈ text, character.isDigit = true

instance (text : List Char) : Decidable (AllDigits text) :=
  List.decidableBAll (fun character : Char => character.isDigit = true) text

theorem allDigits_cons {character : Char} {rest : List Char} :
    AllDigits (character :: rest) ↔ character.isDigit = true ∧ AllDigits rest :=
  List.forall_mem_cons

/-- The number that digits denote. -/
def valueOf (digits : List Char) : Nat :=
  Nat.ofDigitChars 10 digits 0

theorem digitValue?_eq (character : Char) : digitValue? character =
    if character.isDigit then some (character.toNat - '0'.toNat) else none := by
  have same : ('0' ≤ character ∧ character ≤ '9') ↔ character.isDigit = true := by
    rw [Char.isDigit, Bool.and_eq_true, decide_eq_true_eq, decide_eq_true_eq]
    exact Iff.rfl
  rw [digitValue?]
  exact if_congr same rfl rfl

theorem le_ofDigitChars (digits : List Char) (read : Nat) :
    read ≤ Nat.ofDigitChars 10 digits read := by
  rw [Nat.ofDigitChars_eq_ofDigitChars_zero]
  have scaled : 1 * read ≤ 10 ^ digits.length * read :=
    Nat.mul_le_mul_right read (Nat.one_le_pow _ _ (by decide))
  omega

/-- Digits are read on as the number that they denote behind what has been read, if that is a
word. -/
theorem readDigits_eq_ok_iff {read : Nat} (word : read ≤ maxWord) {text : List Char}
    {value : Nat} : readDigits read text = .ok value ↔
      AllDigits text ∧ Nat.ofDigitChars 10 text read = value ∧ value ≤ maxWord := by
  induction text generalizing read with
  | nil =>
      rw [readDigits, Except.ok.injEq, Nat.ofDigitChars_nil]
      exact ⟨fun same => ⟨nofun, same, same ▸ word⟩, fun denotes => denotes.2.1⟩
  | cons character rest ih =>
      rw [readDigits, digitValue?_eq, allDigits_cons, Nat.ofDigitChars_cons]
      by_cases digit : character.isDigit = true
      · rw [if_pos digit, Nat.mul_comm 10 read]
        dsimp only
        by_cases large : read * 10 + (character.toNat - '0'.toNat) > maxWord
        · rw [if_pos large]
          refine ⟨nofun, fun ⟨_, denotes, small⟩ => ?_⟩
          have grown := le_ofDigitChars rest (read * 10 + (character.toNat - '0'.toNat))
          omega
        · rw [if_neg large, ih (Nat.not_lt.mp large)]
          simp [digit]
      · simp [digit]

/-! ## Words -/

/-- How a number is written as a decimal word: in digits, with a plus sign in front or without. -/
def Written (text : List Char) (value : Nat) : Prop :=
  ∃ digits, (text = digits ∨ text = '+' :: digits) ∧ digits ≠ [] ∧ AllDigits digits ∧
    valueOf digits = value

theorem written_signed_iff {digits : List Char} {value : Nat} :
    Written ('+' :: digits) value ↔ digits ≠ [] ∧ AllDigits digits ∧ valueOf digits = value := by
  constructor
  · rintro ⟨written, rfl | same, some, digits, denotes⟩
    · exact absurd (allDigits_cons.mp digits).1 (by decide)
    · obtain rfl := (List.cons.inj same).2
      exact ⟨some, digits, denotes⟩
  · exact fun denotes => ⟨digits, .inr rfl, denotes⟩

theorem written_unsigned_iff {text : List Char} (unsigned : ∀ digits, text ≠ '+' :: digits)
    {value : Nat} : Written text value ↔ text ≠ [] ∧ AllDigits text ∧ valueOf text = value := by
  constructor
  · rintro ⟨written, rfl | signed, denotes⟩
    · exact denotes
    · exact absurd signed (unsigned written)
  · exact fun denotes => ⟨text, .inl rfl, denotes⟩

/-- A text is the decimal word of one number at most. -/
theorem Written.unique {text : List Char} {value other : Nat} (written : Written text value)
    (again : Written text other) : value = other := by
  by_cases plus : ∃ digits, text = '+' :: digits
  · obtain ⟨digits, rfl⟩ := plus
    exact (written_signed_iff.mp written).2.2.symm.trans (written_signed_iff.mp again).2.2
  · have unsigned := not_exists.mp plus
    exact (written_unsigned_iff unsigned |>.mp written).2.2.symm.trans
      (written_unsigned_iff unsigned |>.mp again).2.2

/-- Digits that are read from the start. -/
theorem map_readDigits_eq_ok_iff {text : List Char} {word : UInt64} :
    (readDigits 0 text).map UInt64.ofNat = .ok word ↔
      AllDigits text ∧ valueOf text = word.toNat := by
  have fits : word.toNat ≤ maxWord := Nat.le_of_lt_succ word.toNat_lt
  cases read : readDigits 0 text with
  | error cause =>
      have never : ¬(AllDigits text ∧ valueOf text = word.toNat) := fun ⟨digits, denotes⟩ => by
        rw [(readDigits_eq_ok_iff (Nat.zero_le _)).mpr ⟨digits, denotes, fits⟩] at read
        cases read
      exact ⟨nofun, fun denotes => absurd denotes never⟩
  | ok value =>
      obtain ⟨digits, denotes, small⟩ := (readDigits_eq_ok_iff (Nat.zero_le _)).mp read
      have exact : (UInt64.ofNat value).toNat = value :=
        UInt64.toNat_ofNat_of_lt' (Nat.lt_succ_of_le small)
      rw [Except.map, Except.ok.injEq, ← UInt64.toNat_inj, exact, valueOf, denotes]
      exact ⟨fun same => ⟨digits, same⟩, And.right⟩

/-- **A text is read as a word if the word is written so.** -/
theorem readWord_eq_ok_iff {text : List Char} {word : UInt64} :
    readWord text = .ok word ↔ Written text word.toNat := by
  fun_cases readWord text with
  | case1 => exact ⟨nofun, fun ⟨_, same, nonempty, _⟩ => absurd (by simpa using same) nonempty⟩
  | case2 => exact ⟨nofun, fun written => absurd rfl (written_signed_iff.mp written).1⟩
  | case3 digits nonempty =>
      rw [map_readDigits_eq_ok_iff, written_signed_iff]
      exact ⟨fun denotes => ⟨nonempty, denotes⟩, And.right⟩
  | case4 _ nonempty _ unsigned =>
      rw [map_readDigits_eq_ok_iff, written_unsigned_iff unsigned]
      exact ⟨fun denotes => ⟨nonempty, denotes⟩, And.right⟩

end DownloadCache.Decimal
