import DownloadCache.Json.Record

/-!
# Records of several kinds

A text that holds one record, whose kind is named by a tag.  In an object the tag is a member
anywhere among the others; in a list it is the first element.  The tag is decided on as it is
met.  All else is read as values first and given to the kind when the text has been read to the
closing bracket, so what is wrong with it has no position.
-/

namespace DownloadCache.Json

set_option autoImplicit false

/-! ## Kinds -/

/-- A kind of record: the name that its tag has, and what its values stand for. -/
structure Variant (α : Type) where
  name : String
  ofValue : Value → Except Mismatch α

/-- A kind with members, under the name that an error text gives it. -/
def Variant.record {α : Type} {types : List Type} (name label : String)
    (members : Members types) (meaning : Tuple types → α) : Variant α where
  name := name
  ofValue value := (members.ofValue label value).map meaning

/-- A kind without members. -/
def Variant.bare {α : Type} (name : String) (meaning : α) : Variant α where
  name := name
  ofValue
    | .array [] => .ok meaning
    | .array elements => .error (.wrongLength elements.length "0 elements in sequence")
    | _ => .ok meaning

/-! ## Reading -/

/-- The name of the tag in an object. -/
def tagName : String := "type"

/-- Reads a tag. -/
def readTag {α : Type} (variants : List (Variant α)) (input : Octets) :
    Except Fault (Variant α × Octets) := do
  let (octet, rest) ← startValue input
  if octet = quoteMark then
    let (name, further) ← readString rest
    match variants.find? fun variant => variant.name == name with
    | some variant => return (variant, further)
    | none => throw ((Mismatch.unknownVariant name (variants.map (·.name))).before further)
  else throw (wrongTypeAt "variant identifier" octet rest)

/-- Reads a value within the brackets of a record. -/
def readContent : Octets → Except Fault (Value × Octets) :=
  readValue (maxDepth - 1)

/-- Reads the tag and the elements of a list. -/
def readTaggedList {α : Type} (variants : List (Variant α)) (input : Octets) :
    Except Stop ((Variant α × Value) × Octets) := do
  match ← within (nextElement? true input) with
  | none => .error (.mismatch (.missingField tagName) input)
  | some start =>
      let (variant, behind) ← within (readTag variants start)
      let (elements, rest) ←
        within (readElements readContent (behind.length + 1) false [] behind)
      return ((variant, .array elements), rest)

/-- Reads the tag and the other members of an object, in so many rounds at most. -/
def readTaggedObject {α : Type} (variants : List (Variant α)) :
    Nat → Bool → Option (Variant α) → List (String × Value) → Octets →
      Except Stop ((Variant α × Value) × Octets)
  | 0, _, _, _, input => .error (.fault (Breach.endInObject.within input))
  | rounds + 1, first, tag?, read, input => do
      match ← within (nextName? first input) with
      | none =>
          match tag? with
          | none => .error (.mismatch (.missingField tagName) input)
          | some variant => return ((variant, .object read.reverse), input)
      | some start =>
          let (name, behindName) ← within (readString start)
          if name = tagName then
            if tag?.isSome then .error (.mismatch (.duplicateField tagName) behindName)
            else
              let behindColon ← within (readColon behindName)
              let (variant, rest) ← within (readTag variants behindColon)
              readTaggedObject variants rounds false (some variant) read rest
          else
            let behindColon ← within (readColon behindName)
            let (value, rest) ← within (readContent behindColon)
            readTaggedObject variants rounds false tag? ((name, value) :: read) rest

/-- Reads a record of some kind up to its closing bracket. -/
def readTagged {α : Type} (expected : String) (variants : List (Variant α)) (input : Octets) :
    Except Fault ((Variant α × Value) × Octets) := do
  let (octet, rest) ← startValue input
  if octet = openBracket then finishList (readTaggedList variants rest)
  else if octet = openBrace then
    finishObject (readTaggedObject variants (rest.length + 1) true none [] rest)
  else .error (wrongTypeAt expected octet rest)

/-- Reads a text that holds one record of some kind. -/
def readWholeTagged {α : Type} (expected : String) (variants : List (Variant α))
    (input : Octets) : Except Error α :=
  match readTagged expected variants input with
  | .error fault => .error (fault.error input)
  | .ok ((variant, value), rest) =>
      match variant.ofValue value with
      | .error mismatch => .error ⟨.mismatch mismatch, none⟩
      | .ok meaning =>
          match readEnd rest with
          | .error fault => .error (fault.error input)
          | .ok () => .ok meaning

end DownloadCache.Json
