import DownloadCache.Json.Cursor
import DownloadCache.Text.Utf8

/-!
# JSON strings

Reading and writing what stands between quotes.  Reading takes one octet at a time.  A character
beyond the first plane is escaped as two units of sixteen bits; half of such a pair alone is
refused.  The octets that a string stands for are gathered first and then have to be UTF-8.  If
they are not, the fault is placed by counting back from behind the closing quote, one place for
every octet from the first broken character on; an escape counts for the octets that it stands
for.

Writing escapes the quote, the backslash and the controls, and nothing else.
-/

namespace DownloadCache.Json

set_option autoImplicit false

/-! ## Hexadecimal units -/

/-- The value of a hexadecimal digit. -/
def hexValue? (octet : UInt8) : Option Nat :=
  if 0x30 ≤ octet ∧ octet ≤ 0x39 then some (octet.toNat - 0x30)
  else if 0x41 ≤ octet ∧ octet ≤ 0x46 then some (octet.toNat - 0x41 + 10)
  else if 0x61 ≤ octet ∧ octet ≤ 0x66 then some (octet.toNat - 0x61 + 10)
  else none

/-- A unit of which some digits have been read; its value is lost at an octet that is no digit. -/
structure HexUnit where
  missing : Nat
  value? : Option Nat

/-- A unit of which no digit has been read. -/
def HexUnit.start : HexUnit := ⟨4, some 0⟩

/-- The unit after one more octet. -/
def HexUnit.push (unit : HexUnit) (octet : UInt8) : HexUnit where
  missing := unit.missing - 1
  value? := unit.value?.bind fun value => (hexValue? octet).map fun digit => value * 16 + digit

/-! ## Reading -/

/-- Where a reader of a string stands. -/
inductive StringMode where
  | plain
  /-- Behind a backslash. -/
  | escape
  /-- Within the digits of an escaped unit. -/
  | unit (read : HexUnit)
  /-- Behind the first unit of a pair, before the backslash of the second. -/
  | pairBackslash (high : Nat)
  /-- Before the letter of the second unit. -/
  | pairLetter (high : Nat)
  /-- Within the digits of the second unit. -/
  | pairUnit (high : Nat) (read : HexUnit)

/-- The octet that an escape letter stands for. -/
def escapedOctet? (letter : UInt8) : Option UInt8 :=
  if letter = quoteMark then some quoteMark
  else if letter = backslash then some backslash
  else if letter = 0x2f then some 0x2f
  else if letter = 0x62 then some 0x08
  else if letter = 0x66 then some 0x0c
  else if letter = 0x6e then some 0x0a
  else if letter = 0x72 then some 0x0d
  else if letter = 0x74 then some 0x09
  else none

/-- The letter that starts an escaped unit. -/
def unitLetter : UInt8 := 0x75

/-- Octets that have been gathered, the last one first. -/
abbrev Gathered := List UInt8

/-- The octets gathered with those of a code point. -/
def Gathered.pushCodePoint (read : Gathered) (code : Nat) : Gathered :=
  (String.utf8EncodeChar (Char.ofNat code)).reverse ++ read

/-- The text of the octets gathered; `rest` is what follows the closing quote. -/
def Gathered.text (read : Gathered) (rest : Octets) : Except Fault String :=
  match Text.Utf8.decode read.reverse with
  | .ok text => .ok (String.ofList text)
  | .error defect =>
      .error ⟨.breach .badCodePoint, rest.length + (read.length - defect.soundOctets)⟩

/-- Reads on in a string behind the octets that have been gathered. -/
def readStringFrom : StringMode → Gathered → Octets → Except Fault (String × Octets)
  | _, _, [] => .error (Breach.endInString.before [])
  | .plain, read, octet :: rest =>
      if octet = quoteMark then (read.text rest).map fun text => (text, rest)
      else if octet = backslash then readStringFrom .escape read rest
      else if octet < 0x20 then .error (Breach.controlCharacter.before rest)
      else readStringFrom .plain (octet :: read) rest
  | .escape, read, octet :: rest =>
      if octet = unitLetter then readStringFrom (.unit HexUnit.start) read rest
      else
        match escapedOctet? octet with
        | some escaped => readStringFrom .plain (escaped :: read) rest
        | none => .error (Breach.badEscape.before rest)
  | .unit before, read, octet :: rest =>
      let unit := before.push octet
      if 0 < unit.missing then readStringFrom (.unit unit) read rest
      else
        match unit.value? with
        | none => .error (Breach.badEscape.before rest)
        | some value =>
            if 0xdc00 ≤ value ∧ value ≤ 0xdfff then .error (Breach.loneSurrogate.before rest)
            else if 0xd800 ≤ value ∧ value ≤ 0xdbff then
              readStringFrom (.pairBackslash value) read rest
            else readStringFrom .plain (read.pushCodePoint value) rest
  | .pairBackslash high, read, octet :: rest =>
      if octet = backslash then readStringFrom (.pairLetter high) read rest
      else .error (Breach.endInHexEscape.before rest)
  | .pairLetter high, read, octet :: rest =>
      if octet = unitLetter then readStringFrom (.pairUnit high HexUnit.start) read rest
      else .error (Breach.endInHexEscape.before rest)
  | .pairUnit high before, read, octet :: rest =>
      let unit := before.push octet
      if 0 < unit.missing then readStringFrom (.pairUnit high unit) read rest
      else
        match unit.value? with
        | none => .error (Breach.badEscape.before rest)
        | some low =>
            if 0xdc00 ≤ low ∧ low ≤ 0xdfff then
              let code := 0x10000 + (high - 0xd800) * 0x400 + (low - 0xdc00)
              readStringFrom .plain (read.pushCodePoint code) rest
            else .error (Breach.loneSurrogate.before rest)

/-- Reads a string behind its opening quote. -/
def readString (input : Octets) : Except Fault (String × Octets) :=
  readStringFrom .plain [] input

/-! ## Skipping -/

/-- Where a reader that skips a string stands. -/
inductive SkipMode where
  | plain
  | escape
  | unit (read : HexUnit)

/-- Skips a string whose content is not wanted: its units need not pair up, and its octets need
not be UTF-8. -/
def skipStringFrom : SkipMode → Octets → Except Fault Octets
  | _, [] => .error (Breach.endInString.before [])
  | .plain, octet :: rest =>
      if octet = quoteMark then .ok rest
      else if octet = backslash then skipStringFrom .escape rest
      else if octet < 0x20 then .error (Breach.controlCharacter.before (octet :: rest))
      else skipStringFrom .plain rest
  | .escape, octet :: rest =>
      if octet = unitLetter then skipStringFrom (.unit HexUnit.start) rest
      else if (escapedOctet? octet).isSome then skipStringFrom .plain rest
      else .error (Breach.badEscape.before rest)
  | .unit before, octet :: rest =>
      let unit := before.push octet
      if 0 < unit.missing then skipStringFrom (.unit unit) rest
      else if unit.value?.isSome then skipStringFrom .plain rest
      else .error (Breach.badEscape.before rest)

/-- Skips a string behind its opening quote. -/
def skipString (input : Octets) : Except Fault Octets :=
  skipStringFrom .plain input

/-! ## Writing -/

/-- Two hexadecimal digits, in lower case. -/
def hexPair (value : Nat) : List Char :=
  [Nat.digitChar (value / 16), Nat.digitChar (value % 16)]

/-- The written form of a character in a string. -/
def escapedChar (character : Char) : List Char :=
  match character with
  | '"' => ['\\', '"']
  | '\\' => ['\\', '\\']
  | '\x08' => ['\\', 'b']
  | '\x0c' => ['\\', 'f']
  | '\n' => ['\\', 'n']
  | '\r' => ['\\', 'r']
  | '\t' => ['\\', 't']
  | other =>
      if other.toNat < 0x20 then '\\' :: 'u' :: '0' :: '0' :: hexPair other.toNat else [other]

/-- The written form of a string. -/
def writeString (text : String) : List Char :=
  '"' :: (text.toList.flatMap escapedChar ++ ['"'])

end DownloadCache.Json
