import DownloadCache.Json.Form

/-!
# Records

A record is a sequence of members, each with a name and a form.  It is written as an object, in
any order of its names, or as a list in the order of the members.  Names that are not members are
passed over.  A member that is absent may have a value that stands for it, in an object, in a
list, or in both.

Faults are found in the order of the text: a name that comes twice is refused when its second
occurrence is met, before its value is looked at; absent members are looked for at the end, in
the order of the members.
-/

namespace DownloadCache.Json

set_option autoImplicit false

/-! ## Members -/

/-- A member of a record. -/
structure Member (α : Type) where
  name : String
  form : Form α
  /-- What stands for the member in an object without it. -/
  inObject? : Option α
  /-- What stands for the member in a list that ends before it. -/
  inList? : Option α

/-- A member that has to be there. -/
def Member.required {α : Type} (name : String) (form : Form α) : Member α :=
  ⟨name, form, none, none⟩

/-- A member with a value that stands for it wherever it is absent. -/
def Member.withDefault {α : Type} (name : String) (form : Form α) (absent : α) : Member α :=
  ⟨name, form, some absent, some absent⟩

/-- A member that an object may lack or hold as `null`. -/
def Member.optional {α : Type} (name : String) (form : Form α) : Member (Option α) :=
  ⟨name, form.optional, some none, none⟩

/-- The members of a record whose values have the given types. -/
inductive Members : List Type → Type 1 where
  | nil : Members []
  | cons {α : Type} {types : List Type} (member : Member α) (others : Members types) :
      Members (α :: types)

/-- The values of a record. -/
def Tuple : List Type → Type
  | [] => Unit
  | α :: types => α × Tuple types

/-- The values of a record as far as they are known. -/
def Draft : List Type → Type
  | [] => Unit
  | α :: types => Option α × Draft types

/-- How many members there are. -/
def Members.size : {types : List Type} → Members types → Nat
  | _, .nil => 0
  | _, .cons _ others => others.size + 1

/-- The draft in which nothing is known. -/
def Members.blank : {types : List Type} → Members types → Draft types
  | _, .nil => ()
  | _, .cons _ others => (none, others.blank)

/-- The values of a draft, those that stand for absent members included. -/
def Members.complete : {types : List Type} → Members types → Draft types →
    Except Mismatch (Tuple types)
  | _, .nil, _ => .ok ()
  | _, .cons member others, (known, further) =>
      match known.or member.inObject? with
      | none => .error (.missingField member.name)
      | some value => (others.complete further).map fun values => (value, values)

/-! ## From values that were read before -/

/-- Puts the value of a name into a draft. -/
def Members.put : {types : List Type} → Members types → Draft types → String → Value →
    Except Mismatch (Draft types)
  | _, .nil, draft, _, _ => .ok draft
  | _, .cons member others, (known, further), name, value =>
      if member.name = name then
        if known.isSome then .error (.duplicateField name)
        else (member.form.ofValue value).map fun meaning => (some meaning, further)
      else (others.put further name value).map fun draft => (known, draft)

/-- Puts the values of names into a draft, one after the other. -/
def Members.putAll {types : List Type} (members : Members types) :
    Draft types → List (String × Value) → Except Mismatch (Draft types)
  | draft, [] => .ok draft
  | draft, (name, value) :: rest => do
      let further ← members.put draft name value
      members.putAll further rest

/-- The number of elements in an error text. -/
def elementCount (count : Nat) : String :=
  if count = 1 then "1 element" else s!"{count} elements"

/-- The values of a list, and how many elements are left over. -/
def Members.ofList (label : String) : {types : List Type} → Members types → Nat → List Value →
    Except Mismatch (Tuple types × Nat)
  | _, .nil, _, left => .ok ((), left.length)
  | _, .cons member others, index, [] =>
      match member.inList? with
      | none => .error (.wrongLength index label)
      | some absent => do
          let (values, left) ← others.ofList label (index + 1) []
          return ((absent, values), left)
  | _, .cons member others, index, element :: rest => do
      let value ← member.form.ofValue element
      let (values, left) ← others.ofList label (index + 1) rest
      return ((value, values), left)

/-- The values of a record that was read before, under the name that an error text gives it. -/
def Members.ofValue {types : List Type} (members : Members types) (label : String) :
    Value → Except Mismatch (Tuple types)
  | .array elements => do
      let (values, left) ←
        members.ofList s!"{label} with {elementCount members.size}" 0 elements
      if left = 0 then return values
      else throw (.wrongLength (members.size + left) s!"{elementCount members.size} in sequence")
  | .object named => do
      let draft ← members.putAll members.blank named
      members.complete draft
  | other => .error (.wrongType other.description label)

/-! ## From octets -/

/-- Reads the value of a name into a draft, or skips it if the name is not a member. -/
def Members.readNamed : {types : List Type} → Members types → Draft types → String → Octets →
    Except Stop (Draft types × Octets)
  | _, .nil, draft, _, input => within do
      let behindColon ← readColon input
      let rest ← skipValue behindColon
      return (draft, rest)
  | _, .cons member others, (known, further), name, input =>
      if member.name = name then
        if known.isSome then .error (.mismatch (.duplicateField name) input)
        else within do
          let behindColon ← readColon input
          let (meaning, rest) ← member.form.read behindColon
          return ((some meaning, further), rest)
      else do
        let (draft, rest) ← others.readNamed further name input
        return ((known, draft), rest)

/-- Reads the members of an object into a draft, in so many rounds at most. -/
def Members.readObject {types : List Type} (members : Members types) :
    Nat → Bool → Draft types → Octets → Except Stop (Tuple types × Octets)
  | 0, _, _, input => .error (.fault (Breach.endInObject.within input))
  | rounds + 1, first, draft, input => do
      match ← within (nextName? first input) with
      | none =>
          match members.complete draft with
          | .ok values => return (values, input)
          | .error mismatch => .error (.mismatch mismatch input)
      | some start =>
          let (name, behindName) ← within (readString start)
          let (further, rest) ← members.readNamed draft name behindName
          members.readObject rounds false further rest

/-- Reads the elements of a list. -/
def Members.readList (label : String) : {types : List Type} → Members types → Nat → Octets →
    Except Stop (Tuple types × Octets)
  | _, .nil, _, input => .ok ((), input)
  | _, .cons member others, index, input => do
      match ← within (nextElement? (index == 0) input) with
      | none =>
          match member.inList? with
          | none => .error (.mismatch (.wrongLength index label) input)
          | some absent =>
              let (values, rest) ← others.readList label (index + 1) input
              return ((absent, values), rest)
      | some start =>
          let (value, behind) ← within (member.form.read start)
          let (values, rest) ← others.readList label (index + 1) behind
          return ((value, values), rest)

/-- Reads a record, under the name that an error text gives it. -/
def Members.read {types : List Type} (members : Members types) (label : String)
    (input : Octets) : Except Fault (Tuple types × Octets) := do
  let (octet, rest) ← startValue input
  if octet = openBracket then
    finishList (members.readList s!"{label} with {elementCount members.size}" 0 rest)
  else if octet = openBrace then
    finishObject (members.readObject (rest.length + 1) true members.blank rest)
  else .error (wrongTypeAt label octet rest)

/-- The form of a record, under the name that an error text gives it. -/
def Members.form {types : List Type} (members : Members types) (label : String) :
    Form (Tuple types) where
  ofValue := members.ofValue label
  read := members.read label

end DownloadCache.Json
