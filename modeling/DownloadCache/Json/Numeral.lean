import DownloadCache.Json.Cursor
import DownloadCache.Json.Value

/-!
# JSON numbers

Digits are gathered in a word of 64 bits.  An integer that fits is kept exactly.  Every other
number becomes a double: the digits that fit the word, scaled by a power of ten; digits beyond
the word only count towards the exponent.  The scaling is one multiplication or division of
doubles by a power of ten up to 10³⁰⁸, and a result that is infinite is refused.
-/

namespace DownloadCache.Json

set_option autoImplicit false

/-! ## Scaling -/

/-- The greatest value of the word in which digits are gathered. -/
def maxSignificand : Nat := 18446744073709551615

/-- The greatest exponent that is gathered digit by digit. -/
def maxExponent : Nat := 2147483647

/-- The double nearest to a power of ten. -/
def powerOfTen (exponent : Nat) : Float :=
  Float.ofScientific 1 false exponent

/-- Scales a double by a power of ten, in `rounds` steps at most; nothing if the result is
infinite. -/
def scale (value : Float) (exponent : Int) : Nat → Option Float
  | 0 => some value
  | rounds + 1 =>
      if exponent.natAbs ≤ 308 then
        if 0 ≤ exponent then
          let scaled := value * powerOfTen exponent.natAbs
          if scaled.isInf then none else some scaled
        else some (value / powerOfTen exponent.natAbs)
      else if value == 0 then some value
      else if 0 ≤ exponent then none
      else scale (value / powerOfTen 308) (exponent + 308) rounds

/-- The double with a sign, a significand and a decimal exponent; four steps take every
significand to zero. -/
def doubleOf (isNegative : Bool) (significand : Nat) (exponent : Int) : Option Number :=
  (scale significand.toUInt64.toFloat exponent 4).map fun value =>
    .double (if isNegative then (-value).toBits else value.toBits)

/-- Takes a double as what a reader gives, or refuses it at the rest. -/
def readDouble (isNegative : Bool) (significand : Nat) (exponent : Int) (rest : Octets) :
    Except Fault (Number × Octets) :=
  match doubleOf isNegative significand exponent with
  | some number => .ok (number, rest)
  | none => .error (Breach.numberOutOfRange.before rest)

/-! ## Exponents and fractions -/

/-- The octets behind the digits at the start. -/
def skipDigits (input : Octets) : Octets :=
  input.dropWhile isDigit

/-- Whether an octet starts an exponent. -/
def isExponentMark (octet : UInt8) : Bool :=
  octet == 0x65 || octet == 0x45

/-- Reads the digits of an exponent behind the value `read` of those before. -/
def readExponentDigits (isNegative : Bool) (significand : Nat) (start : Int) (falling : Bool)
    (read : Nat) : Octets → Except Fault (Number × Octets)
  | [] => readDouble isNegative significand (if falling then start - read else start + read) []
  | octet :: rest =>
      if isDigit octet then
        let further := read * 10 + (octet.toNat - 0x30)
        if further > maxExponent then
          if significand ≠ 0 ∧ falling = false then .error (Breach.numberOutOfRange.before rest)
          else readDouble isNegative 0 0 (skipDigits rest)
        else readExponentDigits isNegative significand start falling further rest
      else
        readDouble isNegative significand (if falling then start - read else start + read)
          (octet :: rest)

/-- Reads an exponent behind its mark. -/
def readExponent (isNegative : Bool) (significand : Nat) (start : Int) (input : Octets) :
    Except Fault (Number × Octets) :=
  let (falling, behindSign) := match input with
    | [] => (false, [])
    | octet :: rest =>
        if octet = 0x2b then (false, rest)
        else if octet = minus then (true, rest)
        else (false, octet :: rest)
  match behindSign with
  | [] => .error (Breach.endInValue.before [])
  | octet :: rest =>
      if isDigit octet then
        readExponentDigits isNegative significand start falling (octet.toNat - 0x30) rest
      else .error (Breach.badNumber.before rest)

/-- Reads on behind the digits of a fraction. -/
def readAfterFraction (isNegative : Bool) (significand : Nat) (exponent : Int) (input : Octets) :
    Except Fault (Number × Octets) :=
  match input with
  | [] => readDouble isNegative significand exponent []
  | octet :: rest =>
      if isExponentMark octet then readExponent isNegative significand exponent rest
      else readDouble isNegative significand exponent (octet :: rest)

/-- Reads the digits of a fraction, of which `places` have been read. -/
def readFractionDigits (isNegative : Bool) (start : Int) (significand places : Nat) :
    Octets → Except Fault (Number × Octets)
  | [] =>
      if places = 0 then .error (Breach.endInValue.within [])
      else readAfterFraction isNegative significand (start - places) []
  | octet :: rest =>
      if isDigit octet then
        let further := significand * 10 + (octet.toNat - 0x30)
        if further > maxSignificand then
          readAfterFraction isNegative significand (start - places) (skipDigits rest)
        else readFractionDigits isNegative start further (places + 1) rest
      else if places = 0 then .error (Breach.badNumber.within (octet :: rest))
      else readAfterFraction isNegative significand (start - places) (octet :: rest)

/-! ## Integers -/

/-- The greatest magnitude of a negative integer that is kept exactly, 2⁶³. -/
def maxNegativeMagnitude : Nat := 9223372036854775808

/-- The number that digits without fraction and exponent denote. -/
def integerOf (isNegative : Bool) (significand : Nat) : Number :=
  if isNegative = false then .count significand.toUInt64
  else if 0 < significand ∧ significand ≤ maxNegativeMagnitude then .negative (-(significand : Int))
  else .double (-(significand.toUInt64.toFloat)).toBits

/-- Reads on behind the digits of an integer that fits the word. -/
def readAfterInteger (isNegative : Bool) (significand : Nat) (input : Octets) :
    Except Fault (Number × Octets) :=
  match input with
  | [] => .ok (integerOf isNegative significand, [])
  | octet :: rest =>
      if octet = 0x2e then readFractionDigits isNegative 0 significand 0 rest
      else if isExponentMark octet then readExponent isNegative significand 0 rest
      else .ok (integerOf isNegative significand, octet :: rest)

/-- Reads the digits beyond the word, of which `places` have been read. -/
def readLongInteger (isNegative : Bool) (significand places : Nat) :
    Octets → Except Fault (Number × Octets)
  | [] => readDouble isNegative significand places []
  | octet :: rest =>
      if isDigit octet then readLongInteger isNegative significand (places + 1) rest
      else if octet = 0x2e then readFractionDigits isNegative places significand 0 rest
      else if isExponentMark octet then readExponent isNegative significand places rest
      else readDouble isNegative significand places (octet :: rest)

/-- Reads the digits of an integer behind the value of those before. -/
def readIntegerDigits (isNegative : Bool) (significand : Nat) :
    Octets → Except Fault (Number × Octets)
  | [] => readAfterInteger isNegative significand []
  | octet :: rest =>
      if isDigit octet then
        let further := significand * 10 + (octet.toNat - 0x30)
        if further > maxSignificand then
          readLongInteger isNegative significand 1 rest
        else readIntegerDigits isNegative further rest
      else readAfterInteger isNegative significand (octet :: rest)

/-- Reads a number behind its sign.  A zero in front of other digits is refused. -/
def readUnsigned (isNegative : Bool) (input : Octets) : Except Fault (Number × Octets) :=
  match input with
  | [] => .error (Breach.endInValue.before [])
  | octet :: rest =>
      if octet = 0x30 then
        match rest with
        | [] => readAfterInteger isNegative 0 []
        | next :: further =>
            if isDigit next then .error (Breach.badNumber.within (next :: further))
            else readAfterInteger isNegative 0 (next :: further)
      else if isDigit octet then readIntegerDigits isNegative (octet.toNat - 0x30) rest
      else .error (Breach.badNumber.before rest)

/-- Reads a number whose first octet is a digit or the minus sign. -/
def readNumber (octet : UInt8) (rest : Octets) : Except Fault (Number × Octets) :=
  if octet = minus then readUnsigned true rest else readUnsigned false (octet :: rest)

/-- Whether an octet starts a number. -/
def startsNumber (octet : UInt8) : Bool :=
  octet == minus || isDigit octet

/-! ## Skipping -/

/-- Skips an exponent behind its mark. -/
def skipExponent (input : Octets) : Except Fault Octets :=
  let behindSign := match input with
    | [] => []
    | octet :: rest => if octet = 0x2b ∨ octet = minus then rest else octet :: rest
  match behindSign with
  | [] => .error (Breach.badNumber.before [])
  | octet :: rest =>
      if isDigit octet then .ok (skipDigits rest) else .error (Breach.badNumber.before rest)

/-- Skips a fraction behind its point. -/
def skipFraction (input : Octets) : Except Fault Octets :=
  match input with
  | [] => .error (Breach.badNumber.within [])
  | octet :: rest =>
      if isDigit octet then
        match skipDigits rest with
        | [] => .ok []
        | next :: further =>
            if isExponentMark next then skipExponent further else .ok (next :: further)
      else .error (Breach.badNumber.within (octet :: rest))

/-- Skips what may follow the digits of an integer. -/
def skipAfterInteger (input : Octets) : Except Fault Octets :=
  match input with
  | [] => .ok []
  | octet :: rest =>
      if octet = 0x2e then skipFraction rest
      else if isExponentMark octet then skipExponent rest
      else .ok (octet :: rest)

/-- Skips a number behind its sign. -/
def skipUnsigned (input : Octets) : Except Fault Octets :=
  match input with
  | [] => .error (Breach.badNumber.before [])
  | octet :: rest =>
      if octet = 0x30 then
        match rest with
        | [] => .ok []
        | next :: further =>
            if isDigit next then .error (Breach.badNumber.within (next :: further))
            else skipAfterInteger (next :: further)
      else if isDigit octet then skipAfterInteger (skipDigits rest)
      else .error (Breach.badNumber.before rest)

/-- Skips a number whose first octet is a digit or the minus sign. -/
def skipNumber (octet : UInt8) (rest : Octets) : Except Fault Octets :=
  if octet = minus then skipUnsigned rest else skipUnsigned (octet :: rest)

end DownloadCache.Json
