/-!
# JSON errors

Two kinds of causes: a text that breaks the grammar, and a value that does not have the form
that a record asks for.  A cause found while octets are read has a position, the line and the
column up to which they had been read; one found in a value that was read before has none.
-/

namespace DownloadCache.Json

set_option autoImplicit false

/-! ## Causes -/

/-- How a text breaks the grammar. -/
inductive Breach where
  | endInValue
  | endInList
  | endInObject
  | endInString
  | noColon
  | noListCommaOrEnd
  | noObjectCommaOrEnd
  | noIdent
  | noValue
  | badEscape
  | badNumber
  | numberOutOfRange
  | badCodePoint
  | controlCharacter
  | keyNotString
  | loneSurrogate
  | trailingComma
  | trailingCharacters
  | endInHexEscape
  | tooDeep
deriving DecidableEq

/-- How a value misses the form that is asked for. -/
inductive Mismatch where
  /-- The value found, and the kind of value asked for. -/
  | wrongType (found expected : String)
  /-- A number outside the range asked for. -/
  | wrongValue (found expected : String)
  /-- A list of the wrong length. -/
  | wrongLength (length : Nat) (expected : String)
  | unknownVariant (name : String) (variants : List String)
  | missingField (name : String)
  | duplicateField (name : String)
deriving DecidableEq

/-- Why octets do not give what was asked for. -/
inductive Cause where
  | breach (found : Breach)
  | mismatch (found : Mismatch)
deriving DecidableEq

/-! ## Positions -/

/-- A line, counted from one, and the octets read of it. -/
structure Position where
  line : Nat
  column : Nat
deriving DecidableEq

/-- The position behind octets. -/
def Position.behind (read : List UInt8) : Position :=
  read.foldl
    (fun position octet =>
      if octet = 0x0a then ⟨position.line + 1, 0⟩ else ⟨position.line, position.column + 1⟩)
    ⟨1, 0⟩

/-- A cause, with the position if octets were being read. -/
structure Error where
  cause : Cause
  position? : Option Position
deriving DecidableEq

/-! ## Texts -/

/-- The text for a breach of the grammar. -/
def Breach.message : Breach → String
  | .endInValue => "EOF while parsing a value"
  | .endInList => "EOF while parsing a list"
  | .endInObject => "EOF while parsing an object"
  | .endInString => "EOF while parsing a string"
  | .noColon => "expected `:`"
  | .noListCommaOrEnd => "expected `,` or `]`"
  | .noObjectCommaOrEnd => "expected `,` or `\x7d`"
  | .noIdent => "expected ident"
  | .noValue => "expected value"
  | .badEscape => "invalid escape"
  | .badNumber => "invalid number"
  | .numberOutOfRange => "number out of range"
  | .badCodePoint => "invalid unicode code point"
  | .controlCharacter => "control character (\\u0000-\\u001F) found while parsing a string"
  | .keyNotString => "key must be a string"
  | .loneSurrogate => "lone leading surrogate in hex escape"
  | .trailingComma => "trailing comma"
  | .trailingCharacters => "trailing characters"
  | .endInHexEscape => "unexpected end of hex escape"
  | .tooDeep => "recursion limit exceeded"

/-- The list of variants in an error text: one alone, two joined, more after a lead. -/
def variantList : List String → String
  | [] => "there are no variants"
  | [name] => s!"expected `{name}`"
  | [first, second] => s!"expected `{first}` or `{second}`"
  | names => "expected one of " ++ ", ".intercalate (names.map fun name => s!"`{name}`")

/-- The text for a value of the wrong form. -/
def Mismatch.message : Mismatch → String
  | .wrongType found expected => s!"invalid type: {found}, expected {expected}"
  | .wrongValue found expected => s!"invalid value: {found}, expected {expected}"
  | .wrongLength length expected => s!"invalid length {length}, expected {expected}"
  | .unknownVariant name variants => s!"unknown variant `{name}`, {variantList variants}"
  | .missingField name => s!"missing field `{name}`"
  | .duplicateField name => s!"duplicate field `{name}`"

/-- The text for a cause. -/
def Cause.message : Cause → String
  | .breach found => found.message
  | .mismatch found => found.message

/-- The text of an error, its position behind it if it has one. -/
def Error.message (error : Error) : String :=
  match error.position? with
  | some position => s!"{error.cause.message} at line {position.line} column {position.column}"
  | none => error.cause.message

end DownloadCache.Json
