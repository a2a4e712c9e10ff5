import DownloadCache.Json.Error

/-!
# Reading octets

What every reader of JSON shares.  A reader takes the octets that are still to be read and gives
back a value and the rest.  A fault is placed by the number of octets to its right, so no reader
has to know the whole text; the whole text turns that number into a line and a column.

A fault is placed at the rest itself or, where the reader has only looked at the next octet,
behind that octet.  A mismatch within brackets is held back until the brackets have been closed
as far as they can be: it is placed where that leaves the reader.
-/

namespace DownloadCache.Json

set_option autoImplicit false

/-- Octets that are still to be read. -/
abbrev Octets := List UInt8

/-! ## Octets of the grammar -/

def quoteMark : UInt8 := 0x22
def backslash : UInt8 := 0x5c
def comma : UInt8 := 0x2c
def colon : UInt8 := 0x3a
def minus : UInt8 := 0x2d
def openBracket : UInt8 := 0x5b
def closeBracket : UInt8 := 0x5d
def openBrace : UInt8 := 0x7b
def closeBrace : UInt8 := 0x7d

/-- The space, the tab, the line feed and the carriage return. -/
def isSpace (octet : UInt8) : Bool :=
  octet == 0x20 || octet == 0x09 || octet == 0x0a || octet == 0x0d

/-- Whether an octet is an ASCII digit. -/
def isDigit (octet : UInt8) : Bool :=
  0x30 ≤ octet && octet ≤ 0x39

/-- The octets from the first one that is no white space. -/
def skipSpace (input : Octets) : Octets :=
  input.dropWhile isSpace

/-! ## Faults -/

/-- A cause and how many octets stand to the right of the place where it was found. -/
structure Fault where
  cause : Cause
  remaining : Nat
deriving DecidableEq

/-- A breach of the grammar at the octets that are still to be read. -/
def Breach.before (breach : Breach) (rest : Octets) : Fault :=
  ⟨.breach breach, rest.length⟩

/-- A breach of the grammar in the next octet. -/
def Breach.within (breach : Breach) (rest : Octets) : Fault :=
  ⟨.breach breach, rest.length - 1⟩

/-- A mismatch at the octets that are still to be read. -/
def Mismatch.before (mismatch : Mismatch) (rest : Octets) : Fault :=
  ⟨.mismatch mismatch, rest.length⟩

/-- The error that a fault in a text is. -/
def Fault.error (fault : Fault) (input : Octets) : Error :=
  ⟨fault.cause, some (Position.behind (input.take (input.length - fault.remaining)))⟩

/-! ## Brackets -/

/-- What stops a reader within brackets: a fault with its place, or a mismatch without one. -/
inductive Stop where
  | fault (found : Fault)
  | mismatch (found : Mismatch) (rest : Octets)

/-- The first octet of a value, behind white space. -/
def startValue (input : Octets) : Except Fault (UInt8 × Octets) :=
  match skipSpace input with
  | [] => .error (Breach.endInValue.within [])
  | octet :: rest => .ok (octet, rest)

/-- Where the next element of a list starts, or nothing if the list ends here. -/
def nextElement? (first : Bool) (input : Octets) : Except Fault (Option Octets) :=
  match skipSpace input with
  | [] => .error (Breach.endInList.within [])
  | octet :: rest =>
      if octet = closeBracket then .ok none
      else if octet = comma ∧ first = false then
        match skipSpace rest with
        | [] => .error (Breach.endInValue.within [])
        | next :: further =>
            if next = closeBracket then .error (Breach.trailingComma.within (next :: further))
            else .ok (some (next :: further))
      else if first then .ok (some (octet :: rest))
      else .error (Breach.noListCommaOrEnd.within (octet :: rest))

/-- What follows the quote that opens the next name, or nothing if the object ends here. -/
def nextName? (first : Bool) (input : Octets) : Except Fault (Option Octets) :=
  match skipSpace input with
  | [] => .error (Breach.endInObject.within [])
  | octet :: rest =>
      if octet = closeBrace then .ok none
      else if octet = comma ∧ first = false then
        match skipSpace rest with
        | [] => .error (Breach.endInValue.within [])
        | next :: further =>
            if next = quoteMark then .ok (some further)
            else if next = closeBrace then
              .error (Breach.trailingComma.within (next :: further))
            else .error (Breach.keyNotString.within (next :: further))
      else if first then
        if octet = quoteMark then .ok (some rest)
        else .error (Breach.keyNotString.within (octet :: rest))
      else .error (Breach.noObjectCommaOrEnd.within (octet :: rest))

/-- Reads the colon behind a name. -/
def readColon (input : Octets) : Except Fault Octets :=
  match skipSpace input with
  | [] => .error (Breach.endInObject.within [])
  | octet :: rest =>
      if octet = colon then .ok rest else .error (Breach.noColon.within (octet :: rest))

/-- Reads the bracket that closes a list. -/
def closeList (input : Octets) : Except Fault Octets :=
  match skipSpace input with
  | [] => .error (Breach.endInList.within [])
  | octet :: rest =>
      if octet = closeBracket then .ok rest
      else if octet = comma then
        match skipSpace rest with
        | [] => .error (Breach.trailingCharacters.within [])
        | next :: further =>
            if next = closeBracket then .error (Breach.trailingComma.within (next :: further))
            else .error (Breach.trailingCharacters.within (next :: further))
      else .error (Breach.trailingCharacters.within (octet :: rest))

/-- Reads the brace that closes an object. -/
def closeObject (input : Octets) : Except Fault Octets :=
  match skipSpace input with
  | [] => .error (Breach.endInObject.within [])
  | octet :: rest =>
      if octet = closeBrace then .ok rest
      else if octet = comma then .error (Breach.trailingComma.within (octet :: rest))
      else .error (Breach.trailingCharacters.within (octet :: rest))

/-- Where an attempt to close a list leaves the reader. -/
def pastList (input : Octets) : Octets :=
  match skipSpace input with
  | [] => []
  | octet :: rest =>
      if octet = closeBracket then rest
      else if octet = comma then skipSpace rest
      else octet :: rest

/-- Where an attempt to close an object leaves the reader. -/
def pastObject (input : Octets) : Octets :=
  match skipSpace input with
  | [] => []
  | octet :: rest => if octet = closeBrace then rest else octet :: rest

/-- Closes a list after its content has been read. -/
def finishList {α : Type} : Except Stop (α × Octets) → Except Fault (α × Octets)
  | .ok (value, rest) => (closeList rest).map fun further => (value, further)
  | .error (.fault found) => .error found
  | .error (.mismatch found rest) => .error (found.before (pastList rest))

/-- Closes an object after its content has been read. -/
def finishObject {α : Type} : Except Stop (α × Octets) → Except Fault (α × Octets)
  | .ok (value, rest) => (closeObject rest).map fun further => (value, further)
  | .error (.fault found) => .error found
  | .error (.mismatch found rest) => .error (found.before (pastObject rest))

/-- Takes a fault for what stops a reader within brackets. -/
def within {α : Type} : Except Fault α → Except Stop α
  | .ok value => .ok value
  | .error found => .error (.fault found)

/-! ## Whole texts -/

/-- Nothing but white space may follow a value. -/
def readEnd (input : Octets) : Except Fault Unit :=
  match skipSpace input with
  | [] => .ok ()
  | octet :: rest => .error (Breach.trailingCharacters.within (octet :: rest))

/-- Reads a text that holds one value. -/
def readWhole {α : Type} (reader : Octets → Except Fault (α × Octets)) (input : Octets) :
    Except Error α :=
  match reader input with
  | .error found => .error (found.error input)
  | .ok (value, rest) =>
      match readEnd rest with
      | .error found => .error (found.error input)
      | .ok () => .ok value

end DownloadCache.Json
