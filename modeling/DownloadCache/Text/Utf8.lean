/-!
# UTF-8

Text as octets.  `encode` writes characters, `decode` reads them back, and `lossy` reads any
octets at all, putting the replacement character in the place of what is no text.

Reading is a machine that takes one octet at a time.  Between characters it is idle; within a
character it knows how many octets are missing and in which range the next one has to lie, so
overlong forms, surrogates and values beyond the last code point are refused at the first octet
that gives them away.  A refusal says how many octets were sound before the broken character and
how long the broken part is, the two facts that an error text about it names.
-/

namespace DownloadCache.Text.Utf8

set_option autoImplicit false

/-! ## Writing -/

/-- The octets of a text. -/
def encode (text : List Char) : List UInt8 :=
  text.flatMap String.utf8EncodeChar

/-! ## The machine -/

/-- A character whose first octets have been read. -/
structure Partial where
  /-- The bits gathered so far. -/
  code : Nat
  /-- How many octets are still missing, at least one. -/
  missing : Nat
  /-- The least value that the next octet may have. -/
  low : UInt8
  /-- The greatest value that the next octet may have. -/
  high : UInt8
  /-- How many octets have been read. -/
  taken : Nat
deriving DecidableEq

/-- What one octet does to the machine. -/
inductive Reaction where
  | complete (character : Char)
  | continued (state : Partial)
  | refused
deriving DecidableEq

/-- The first octet of a character. -/
def start (octet : UInt8) : Reaction :=
  if octet < 0x80 then .complete (Char.ofNat octet.toNat)
  else if octet < 0xc2 then .refused
  else if octet < 0xe0 then .continued ⟨octet.toNat - 0xc0, 1, 0x80, 0xbf, 1⟩
  else if octet = 0xe0 then .continued ⟨0, 2, 0xa0, 0xbf, 1⟩
  else if octet = 0xed then .continued ⟨0xd, 2, 0x80, 0x9f, 1⟩
  else if octet < 0xf0 then .continued ⟨octet.toNat - 0xe0, 2, 0x80, 0xbf, 1⟩
  else if octet = 0xf0 then .continued ⟨0, 3, 0x90, 0xbf, 1⟩
  else if octet < 0xf4 then .continued ⟨octet.toNat - 0xf0, 3, 0x80, 0xbf, 1⟩
  else if octet = 0xf4 then .continued ⟨4, 3, 0x80, 0x8f, 1⟩
  else .refused

/-- A later octet of a character. -/
def Partial.next (state : Partial) (octet : UInt8) : Reaction :=
  if state.low ≤ octet ∧ octet ≤ state.high then
    let code := state.code * 64 + (octet.toNat - 0x80)
    if state.missing ≤ 1 then .complete (Char.ofNat code)
    else .continued ⟨code, state.missing - 1, 0x80, 0xbf, state.taken + 1⟩
  else .refused

/-! ## Reading -/

/-- Where octets stop being text. -/
structure Defect where
  /-- How many octets are sound before the broken character. -/
  soundOctets : Nat
  /-- The length of the broken part, or nothing if the octets end within a character. -/
  length? : Option Nat
deriving DecidableEq

/-- The text of an error about broken octets. -/
def Defect.message (defect : Defect) : String :=
  match defect.length? with
  | some length =>
      s!"invalid utf-8 sequence of {length} bytes from index {defect.soundOctets}"
  | none => s!"incomplete utf-8 byte sequence from index {defect.soundOctets}"

/-- Reads on with `sound` octets and the characters `read` behind it, the last one first. -/
def decodeFrom (sound : Nat) (read : List Char) : Option Partial → List UInt8 →
    Except Defect (List Char)
  | none, [] => .ok read.reverse
  | some _, [] => .error ⟨sound, none⟩
  | none, octet :: rest =>
      match start octet with
      | .complete character => decodeFrom (sound + 1) (character :: read) none rest
      | .continued state => decodeFrom sound read (some state) rest
      | .refused => .error ⟨sound, some 1⟩
  | some state, octet :: rest =>
      match state.next octet with
      | .complete character =>
          decodeFrom (sound + state.taken + 1) (character :: read) none rest
      | .continued further => decodeFrom sound read (some further) rest
      | .refused => .error ⟨sound, some state.taken⟩

/-- The text that octets spell. -/
def decode (octets : List UInt8) : Except Defect (List Char) :=
  decodeFrom 0 [] none octets

/-- The character that stands for a part that is no text. -/
def replacement : Char := '\uFFFD'

/-- Reads on over broken parts; each leaves one replacement character behind. -/
def lossyFrom (read : List Char) : Option Partial → List UInt8 → List Char
  | none, [] => read.reverse
  | some _, [] => (replacement :: read).reverse
  | none, octet :: rest =>
      match start octet with
      | .complete character => lossyFrom (character :: read) none rest
      | .continued state => lossyFrom read (some state) rest
      | .refused => lossyFrom (replacement :: read) none rest
  | some state, octet :: rest =>
      match state.next octet with
      | .complete character => lossyFrom (character :: read) none rest
      | .continued further => lossyFrom read (some further) rest
      | .refused =>
          match start octet with
          | .complete character => lossyFrom (character :: replacement :: read) none rest
          | .continued further => lossyFrom (replacement :: read) (some further) rest
          | .refused => lossyFrom (replacement :: replacement :: read) none rest

/-- The text of any octets, broken parts replaced. -/
def lossy (octets : List UInt8) : List Char :=
  lossyFrom [] none octets

/-! ## First facts -/

/-- A text of ASCII octets is read octet by octet. -/
theorem decodeFrom_ascii (sound : Nat) (read : List Char) {octet : UInt8} (rest : List UInt8)
    (ascii : octet < 0x80) :
    decodeFrom sound read none (octet :: rest) =
      decodeFrom (sound + 1) (Char.ofNat octet.toNat :: read) none rest := by
  simp [decodeFrom, start, ascii]

end DownloadCache.Text.Utf8
