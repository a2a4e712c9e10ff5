import DownloadCache.Json.Reader

/-!
# Forms of values

A form says which values are asked for and what they stand for.  It reads from octets, and it
takes a value that was read before; both ways accept the same values and report the same causes,
but only the first knows positions.
-/

namespace DownloadCache.Json

set_option autoImplicit false

/-- Which values are asked for, and what they stand for. -/
structure Form (α : Type) where
  /-- What a value that was read before stands for. -/
  ofValue : Value → Except Mismatch α
  /-- Reads a value of this form. -/
  read : Octets → Except Fault (α × Octets)

/-- The form with the same values and another meaning. -/
def Form.map {α β : Type} (meaning : α → β) (form : Form α) : Form β where
  ofValue value := (form.ofValue value).map meaning
  read input := (form.read input).map fun (value, rest) => (meaning value, rest)

/-! ## Text and switches -/

/-- A string, under the name that an error text gives it. -/
def Form.text (expected : String) : Form String where
  ofValue
    | .text value => .ok value
    | other => .error (.wrongType other.description expected)
  read input := do
    let (octet, rest) ← startValue input
    if octet = quoteMark then readString rest
    else .error (wrongTypeAt expected octet rest)

/-- `true` or `false`. -/
def Form.switch : Form Bool where
  ofValue
    | .boolean value => .ok value
    | other => .error (.wrongType other.description "a boolean")
  read input := do
    let (octet, rest) ← startValue input
    if octet = trueMark then (readIdent trueTail rest).map fun further => (true, further)
    else if octet = falseMark then (readIdent falseTail rest).map fun further => (false, further)
    else .error (wrongTypeAt "a boolean" octet rest)

/-! ## Counts -/

/-- The count that a number is, up to a limit. -/
def Number.count? (expected : String) (limit : UInt64) (number : Number) :
    Except Mismatch UInt64 :=
  match number with
  | .count value =>
      if value ≤ limit then .ok value else .error (.wrongValue number.description expected)
  | .negative _ => .error (.wrongValue number.description expected)
  | .double _ => .error (.wrongType number.description expected)

/-- A count up to a limit, under the name that an error text gives it. -/
def Form.count (expected : String) (limit : UInt64) : Form UInt64 where
  ofValue
    | .number number => number.count? expected limit
    | other => .error (.wrongType other.description expected)
  read input := do
    let (octet, rest) ← startValue input
    if startsNumber octet then
      let (number, further) ← readNumber octet rest
      match number.count? expected limit with
      | .ok value => .ok (value, further)
      | .error mismatch => .error (mismatch.before further)
    else .error (wrongTypeAt expected octet rest)

/-- A count of 64 bits. -/
def Form.word : Form UInt64 :=
  .count "u64" 0xffffffffffffffff

/-- A count of 32 bits. -/
def Form.halfWord : Form UInt32 :=
  (Form.count "u32" 0xffffffff).map UInt64.toUInt32

/-- A count of things, of 64 bits. -/
def Form.tally : Form UInt64 :=
  .count "usize" 0xffffffffffffffff

/-! ## What may be absent -/

/-- `null` or a value of a form. -/
def Form.optional {α : Type} (form : Form α) : Form (Option α) where
  ofValue
    | .null => .ok none
    | other => (form.ofValue other).map some
  read input :=
    match skipSpace input with
    | octet :: rest =>
        if octet = nullMark then (readIdent nullTail rest).map fun further => (none, further)
        else (form.read input).map fun (value, further) => (some value, further)
    | [] => (form.read input).map fun (value, further) => (some value, further)

end DownloadCache.Json
