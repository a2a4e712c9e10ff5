import DownloadCache.Decimal.Word
import DownloadCache.Text.Blank
import DownloadCache.Text.Quoted

/-!
# Byte sizes

A byte size is a decimal word, optionally followed by a unit: `K`, `M` or `G` in either case,
the powers of 1024.  Blanks may stand around the whole and between the number and the unit.
-/

namespace DownloadCache

set_option autoImplicit false

/-! ## Units -/

/-- How many bytes a unit letter stands for. -/
def ByteSize.unit? : Char → Option Nat
  | 'K' => some 1024
  | 'k' => some 1024
  | 'M' => some (1024 * 1024)
  | 'm' => some (1024 * 1024)
  | 'G' => some (1024 * 1024 * 1024)
  | 'g' => some (1024 * 1024 * 1024)
  | _ => none

/-- Cuts a text into what stands before its unit letter and the unit, one byte without a letter. -/
def ByteSize.splitUnit (text : List Char) : List Char × Nat :=
  match text.getLast?.bind ByteSize.unit? with
  | some unit => (text.dropLast, unit)
  | none => (text, 1)

/-! ## Reading -/

/-- Why a text is no byte size. -/
inductive ByteSizeError where
  | malformed (text : String) (cause : Decimal.WordError)
  | overflow (text : String)
deriving DecidableEq

/-- The text of an error about a byte size. -/
def ByteSizeError.message : ByteSizeError → String
  | .malformed text cause => s!"invalid size {Text.quoted text}: {cause.message}"
  | .overflow text => s!"size {Text.quoted text} overflows"

/-- Reads a byte size. -/
def ByteSize.read (text : String) : Except ByteSizeError UInt64 :=
  let (number, unit) := ByteSize.splitUnit (Text.trim text.toList)
  match Decimal.readWord (Text.trim number) with
  | .error cause => .error (.malformed text cause)
  | .ok count =>
      if count.toNat * unit > Decimal.maxWord then .error (.overflow text)
      else .ok (UInt64.ofNat (count.toNat * unit))

end DownloadCache
