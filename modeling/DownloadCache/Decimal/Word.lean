/-!
# Decimal words

Reading and writing the numbers from 0 to 2⁶⁴ - 1 in decimal digits.  Reading takes an optional
plus sign and at least one ASCII digit, leading zeros included.  A text with two faults is
refused for the first that is met from the left: a character that is no digit, or the digit
that takes the value beyond the limit.
-/

namespace DownloadCache.Decimal

set_option autoImplicit false

/-! ## Digits -/

/-- The value of an ASCII digit. -/
def digitValue? (character : Char) : Option Nat :=
  if '0' ≤ character ∧ character ≤ '9' then some (character.toNat - '0'.toNat) else none

/-- The decimal digits of a number, without leading zeros. -/
def digits (value : Nat) : List Char :=
  Nat.toDigits 10 value

/-! ## Reading -/

/-- Why a text is no decimal word. -/
inductive WordError where
  | empty
  | notADigit
  | tooLarge
deriving DecidableEq

/-- The text of an error about a decimal word. -/
def WordError.message : WordError → String
  | .empty => "cannot parse integer from empty string"
  | .notADigit => "invalid digit found in string"
  | .tooLarge => "number too large to fit in target type"

/-- The greatest word. -/
def maxWord : Nat := 18446744073709551615

/-- Reads digits on behind the value `read` of those before. -/
def readDigits (read : Nat) : List Char → Except WordError Nat
  | [] => .ok read
  | character :: rest =>
      match digitValue? character with
      | none => .error .notADigit
      | some digit =>
          if read * 10 + digit > maxWord then .error .tooLarge
          else readDigits (read * 10 + digit) rest

/-- Reads an optional plus sign and digits. -/
def readWord : List Char → Except WordError UInt64
  | [] => .error .empty
  | ['+'] => .error .notADigit
  | '+' :: digits => (readDigits 0 digits).map UInt64.ofNat
  | digits => (readDigits 0 digits).map UInt64.ofNat

end DownloadCache.Decimal
