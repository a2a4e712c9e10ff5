import DownloadCache.Decimal.Word
import DownloadCache.Json.Quotation

/-!
# Writing JSON

Objects are written without white space, their members in the order given.  The text of a member
is given already written, so a record writes itself from the texts of its parts.
-/

namespace DownloadCache.Json

set_option autoImplicit false

/-- The written form of an absent value. -/
def writeNull : List Char := ['n', 'u', 'l', 'l']

/-- The written form of a switch. -/
def writeSwitch : Bool → List Char
  | true => ['t', 'r', 'u', 'e']
  | false => ['f', 'a', 'l', 's', 'e']

/-- The written form of a count. -/
def writeCount (value : UInt64) : List Char :=
  Decimal.digits value.toNat

/-- The written form of a value that may be absent. -/
def writeOptional {α : Type} (write : α → List Char) : Option α → List Char
  | none => writeNull
  | some value => write value

/-- A member: its name and the text of its value. -/
def writeMember (member : String × List Char) : List Char :=
  writeString member.1 ++ ':' :: member.2

/-- Members with commas between them. -/
def writeMembers : List (String × List Char) → List Char
  | [] => []
  | [member] => writeMember member
  | member :: others => writeMember member ++ ',' :: writeMembers others

/-- The written form of an object. -/
def writeObject (members : List (String × List Char)) : List Char :=
  '\x7b' :: (writeMembers members ++ ['\x7d'])

end DownloadCache.Json
