import DownloadCache.Json.Numeral
import DownloadCache.Json.Quotation

/-!
# Reading and skipping values

`readValue` reads a value of any form.  It opens a limited number of brackets one within the
other, so that no text can exhaust the reader.  `skipValue` passes over a value that nobody
asked for: it opens brackets without limit, and it does not look into strings or compute numbers.

Loops over elements and members take as many rounds as there are octets to read, since every
round reads at least one.
-/

namespace DownloadCache.Json

set_option autoImplicit false

/-! ## Idents -/

/-- Reads the octets of an ident that are still missing. -/
def readIdent : List UInt8 → Octets → Except Fault Octets
  | [], input => .ok input
  | _ :: _, [] => .error (Breach.endInValue.before [])
  | expected :: missing, octet :: rest =>
      if octet = expected then readIdent missing rest
      else .error (Breach.noIdent.before rest)

/-- The octets of `null` behind the first. -/
def nullTail : List UInt8 := [0x75, 0x6c, 0x6c]

/-- The octets of `true` behind the first. -/
def trueTail : List UInt8 := [0x72, 0x75, 0x65]

/-- The octets of `false` behind the first. -/
def falseTail : List UInt8 := [0x61, 0x6c, 0x73, 0x65]

/-- The first octet of `null`. -/
def nullMark : UInt8 := 0x6e

/-- The first octet of `true`. -/
def trueMark : UInt8 := 0x74

/-- The first octet of `false`. -/
def falseMark : UInt8 := 0x66

/-! ## Scalars -/

/-- Reads a value without brackets from its first octet; nothing if brackets start here. -/
def readScalar? (octet : UInt8) (rest : Octets) : Option (Except Fault (Value × Octets)) :=
  if octet = nullMark then some ((readIdent nullTail rest).map fun further => (.null, further))
  else if octet = trueMark then
    some ((readIdent trueTail rest).map fun further => (.boolean true, further))
  else if octet = falseMark then
    some ((readIdent falseTail rest).map fun further => (.boolean false, further))
  else if startsNumber octet then
    some ((readNumber octet rest).map fun (number, further) => (.number number, further))
  else if octet = quoteMark then
    some ((readString rest).map fun (text, further) => (.text text, further))
  else if octet = openBracket ∨ octet = openBrace then none
  else some (.error (Breach.noValue.within (octet :: rest)))

/-! ## Lists and objects -/

/-- Reads the elements of a list up to its closing bracket, in so many rounds at most. -/
def readElements {α : Type} (element : Octets → Except Fault (α × Octets)) :
    Nat → Bool → List α → Octets → Except Fault (List α × Octets)
  | 0, _, _, input => .error (Breach.endInList.within input)
  | rounds + 1, first, read, input => do
      match ← nextElement? first input with
      | none => return (read.reverse, input)
      | some start =>
          let (value, rest) ← element start
          readElements element rounds false (value :: read) rest

/-- Reads the members of an object up to its closing brace, in so many rounds at most. -/
def readMembers {α : Type} (value : Octets → Except Fault (α × Octets)) :
    Nat → Bool → List (String × α) → Octets → Except Fault (List (String × α) × Octets)
  | 0, _, _, input => .error (Breach.endInObject.within input)
  | rounds + 1, first, read, input => do
      match ← nextName? first input with
      | none => return (read.reverse, input)
      | some start =>
          let (name, behindName) ← readString start
          let behindColon ← readColon behindName
          let (member, rest) ← value behindColon
          readMembers value rounds false ((name, member) :: read) rest

/-- Reads a value whose brackets hold values that `inner` reads; without `inner`, a value that
may hold no brackets. -/
def readValueWith (inner : Option (Octets → Except Fault (Value × Octets))) (input : Octets) :
    Except Fault (Value × Octets) := do
  let (octet, rest) ← startValue input
  match readScalar? octet rest with
  | some scalar => scalar
  | none =>
      match inner with
      | none => .error (Breach.tooDeep.within (octet :: rest))
      | some element =>
          if octet = openBracket then
            let (elements, further) ← readElements element (rest.length + 1) true [] rest
            let behind ← closeList further
            return (.array elements, behind)
          else
            let (members, further) ← readMembers element (rest.length + 1) true [] rest
            let behind ← closeObject further
            return (.object members, behind)

/-- Reads a value with at most `room` brackets open at a time. -/
def readValue : Nat → Octets → Except Fault (Value × Octets)
  | 0 => readValueWith none
  | room + 1 => readValueWith (some (readValue room))

/-- How many brackets a text may have open at a time. -/
def maxDepth : Nat := 127

/-! ## Faults of form -/

/-- The fault of a value that starts with an octet and is not of the kind asked for.  A value
without brackets is read to its end first; brackets are not opened. -/
def wrongTypeAt (expected : String) (octet : UInt8) (rest : Octets) : Fault :=
  match readScalar? octet rest with
  | some (.ok (value, further)) =>
      (Mismatch.wrongType value.description expected).before further
  | some (.error fault) => fault
  | none =>
      let found : Value := if octet = openBracket then .array [] else .object []
      (Mismatch.wrongType found.description expected).before (octet :: rest)

/-! ## Skipping -/

/-- A bracket that is open while values are skipped. -/
inductive Frame where
  | list
  | object
deriving DecidableEq

/-- Skips a name and the colon behind it. -/
def skipName (input : Octets) : Except Fault Octets :=
  match skipSpace input with
  | [] => .error (Breach.endInObject.within [])
  | octet :: rest =>
      if octet = quoteMark then do
        let behindName ← skipString rest
        readColon behindName
      else .error (Breach.keyNotString.within (octet :: rest))

/-- Where a reader that skips values goes on. -/
inductive SkipStep where
  /-- All brackets are closed. -/
  | finished (rest : Octets)
  /-- A value has to follow. -/
  | value (frames : List Frame) (rest : Octets)

/-- Closes brackets behind a value, or behind an opening bracket if `behindValue` is not set,
up to where the next value has to follow. -/
def skipClosing : List Frame → Bool → Octets → Except Fault SkipStep
  | [], _, input => .ok (.finished input)
  | frame :: outer, behindValue, input =>
      match skipSpace input with
      | [] =>
          .error ((if frame = .list then Breach.endInList else Breach.endInObject).within [])
      | octet :: rest =>
          let opensValue (start : Octets) : Except Fault SkipStep :=
            if frame = .object then (skipName start).map (SkipStep.value (frame :: outer))
            else .ok (.value (frame :: outer) start)
          if behindValue ∧ octet = comma then opensValue rest
          else if octet = (if frame = .list then closeBracket else closeBrace) then
            skipClosing outer true rest
          else if behindValue then
            .error ((if frame = .list then Breach.noListCommaOrEnd
              else Breach.noObjectCommaOrEnd).within (octet :: rest))
          else opensValue (octet :: rest)

/-- Skips a value without brackets from its first octet, or the bracket that opens one. -/
def skipStart (frames : List Frame) (octet : UInt8) (rest : Octets) : Except Fault SkipStep :=
  if octet = nullMark then (readIdent nullTail rest).bind (skipClosing frames true)
  else if octet = trueMark then (readIdent trueTail rest).bind (skipClosing frames true)
  else if octet = falseMark then (readIdent falseTail rest).bind (skipClosing frames true)
  else if startsNumber octet then (skipNumber octet rest).bind (skipClosing frames true)
  else if octet = quoteMark then (skipString rest).bind (skipClosing frames true)
  else if octet = openBracket then skipClosing (.list :: frames) false rest
  else if octet = openBrace then skipClosing (.object :: frames) false rest
  else .error (Breach.noValue.within (octet :: rest))

/-- Skips values until all brackets are closed, in so many rounds at most. -/
def skipValues : Nat → List Frame → Octets → Except Fault Octets
  | 0, _, input => .error (Breach.endInValue.within input)
  | rounds + 1, frames, input => do
      let (octet, rest) ← startValue input
      match ← skipStart frames octet rest with
      | .finished behind => return behind
      | .value further start => skipValues rounds further start

/-- Skips a value of any form. -/
def skipValue (input : Octets) : Except Fault Octets :=
  skipValues (input.length + 1) [] input

end DownloadCache.Json
