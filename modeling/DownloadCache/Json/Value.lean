import DownloadCache.Decimal.Shortest
import DownloadCache.Text.Quoted

/-!
# JSON values

A value as it was read.  Numbers keep the class they were written in: a count, a negative
integer, or a double, which is kept by its bits.  An object keeps its members in the order in
which they were written, repeated names included, because a reader of records reports the first
fault in that order.
-/

namespace DownloadCache.Json

set_option autoImplicit false

/-- A number as it was written. -/
inductive Number where
  /-- An integer from 0 to 2⁶⁴ - 1, written without a sign. -/
  | count (value : UInt64)
  /-- An integer from -2⁶³ to -1. -/
  | negative (value : Int)
  /-- Every other number: the double nearest to it, by its bits. -/
  | double (bits : UInt64)
deriving DecidableEq

/-- A JSON value. -/
inductive Value where
  | null
  | boolean (value : Bool)
  | number (value : Number)
  | text (value : String)
  | array (elements : List Value)
  | object (members : List (String × Value))

/-- The words in which an error text names a number. -/
def Number.description : Number → String
  | .count value => s!"integer `{value.toNat}`"
  | .negative value => s!"integer `{value}`"
  | .double bits => s!"floating point `{Decimal.shortestText bits}`"

/-- The words in which an error text names a value. -/
def Value.description : Value → String
  | .null => "null"
  | .boolean true => "boolean `true`"
  | .boolean false => "boolean `false`"
  | .number value => value.description
  | .text value => s!"string {Text.quoted value}"
  | .array _ => "sequence"
  | .object _ => "map"

end DownloadCache.Json
