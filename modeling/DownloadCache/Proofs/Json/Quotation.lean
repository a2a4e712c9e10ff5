import DownloadCache.Json.Printer
import DownloadCache.Proofs.Text.Utf8

/-!
# Strings that are written and read

A string that is written is read as what it was (`readString_body`).  Character by character, the
octets that a reader gathers from the written form are those of the character
(`readStringFrom_escapedChar`): an escape stands for its octet, a unit for a control, and all other
characters stand for themselves.

What is written never breaks a line: no character of it is below the space (`inline_writeString`).
-/

namespace DownloadCache.Json

set_option autoImplicit false

open Text.Utf8
open String (utf8EncodeChar)

/-! ## Texts in one line -/

/-- Whether a text has no character below the space, so that it stays in one line. -/
def Inline (text : List Char) : Prop :=
  ∀ character ∈ text, 0x20 ≤ character.toNat

instance (text : List Char) : Decidable (Inline text) :=
  List.decidableBAll (fun character : Char => 0x20 ≤ character.toNat) text

theorem inline_nil : Inline [] := nofun

theorem inline_cons {character : Char} {text : List Char} :
    Inline (character :: text) ↔ 0x20 ≤ character.toNat ∧ Inline text :=
  List.forall_mem_cons

theorem inline_append {first second : List Char} :
    Inline (first ++ second) ↔ Inline first ∧ Inline second :=
  List.forall_mem_append

/-- No octet of a text in one line is a line feed. -/
theorem Inline.lineFeed_notMem {text : List Char} (inline : Inline text) : 0x0a ∉ encode text := by
  intro member
  have lineFeed := inline _ ((mem_encode_ascii_iff (by decide : 10 < 128)).mp member)
  exact absurd lineFeed (by decide)

/-- A character is written as an escape or as itself, and then it is no control. -/
theorem escapedChar_cases (character : Char) :
    (∃ code < 0x20, character = Char.ofNat code) ∨ character = '"' ∨ character = '\\' ∨
      character ≠ '"' ∧ character ≠ '\\' ∧ 0x20 ≤ character.toNat ∧
        escapedChar character = [character] := by
  by_cases control : character.toNat < 0x20
  · exact .inl ⟨character.toNat, control, (Char.ofNat_toNat character).symm⟩
  by_cases quote : character = '"'
  · exact .inr (.inl quote)
  by_cases slash : character = '\\'
  · exact .inr (.inr (.inl slash))
  · refine .inr (.inr (.inr ⟨quote, slash, Nat.not_lt.mp control, ?_⟩))
    rw [escapedChar.eq_def]
    split <;> simp_all

/-- The written form of a character stays in one line. -/
theorem inline_escapedChar (character : Char) : Inline (escapedChar character) := by
  rcases escapedChar_cases character with ⟨code, small, rfl⟩ | rfl | rfl | ⟨-, -, visible, same⟩
  · interval_cases code <;> decide
  · decide
  · decide
  · rw [same]
    exact inline_cons.mpr ⟨visible, inline_nil⟩

/-- **The written form of a string stays in one line.** -/
theorem inline_writeString (text : String) : Inline (writeString text) := by
  refine inline_cons.mpr ⟨by decide, inline_append.mpr ⟨fun character member => ?_, by decide⟩⟩
  obtain ⟨original, -, member⟩ := List.mem_flatMap.mp member
  exact inline_escapedChar original character member

/-! ## Reading -/

/-- Octets that are neither quotes nor backslashes nor controls are gathered as they are. -/
theorem readStringFrom_plain {octets : List UInt8}
    (plain : ∀ octet ∈ octets, octet ≠ quoteMark ∧ octet ≠ backslash ∧ ¬octet < 0x20)
    (read : Gathered) (rest : Octets) :
    readStringFrom .plain read (octets ++ rest) =
      readStringFrom .plain (octets.reverse ++ read) rest := by
  induction octets generalizing read with
  | nil => rfl
  | cons octet octets ih =>
      rw [List.forall_mem_cons] at plain
      obtain ⟨⟨noQuote, noBackslash, noControl⟩, plain⟩ := plain
      rw [List.cons_append, readStringFrom, if_neg noQuote, if_neg noBackslash, if_neg noControl,
        ih plain, List.reverse_cons, List.append_assoc]
      rfl

/-- The octets of a character that needs no escape are gathered as they are. -/
theorem plain_encodeChar {character : Char} (noQuote : character ≠ '"')
    (noBackslash : character ≠ '\\') (noControl : 0x20 ≤ character.toNat) :
    ∀ octet ∈ utf8EncodeChar character,
      octet ≠ quoteMark ∧ octet ≠ backslash ∧ ¬octet < 0x20 := by
  intro octet member
  have quote : quoteMark.toNat = 34 := rfl
  have slash : backslash.toNat = 92 := rfl
  have space : (0x20 : UInt8).toNat = 32 := rfl
  rw [← UInt8.toNat_inj.ne, ← UInt8.toNat_inj.ne, UInt8.lt_iff_toNat_lt, quote, slash, space]
  by_cases ascii : character.toNat < 128
  · rw [encodeChar_ascii ascii, List.mem_singleton] at member
    have noQuote : character.toNat ≠ 34 := fun same => noQuote (Char.toNat_inj.mp same)
    have noBackslash : character.toNat ≠ 92 := fun same => noBackslash (Char.toNat_inj.mp same)
    rw [member, UInt8.toNat_ofNat', Nat.mod_eq_of_lt (by omega)]
    omega
  · have large := le_of_mem_encodeChar (Nat.not_lt.mp ascii) member
    omega

/-- **The written form of a character is read as its octets.** -/
theorem readStringFrom_escapedChar (read : Gathered) (character : Char) (rest : Octets) :
    readStringFrom .plain read (encode (escapedChar character) ++ rest) =
      readStringFrom .plain ((utf8EncodeChar character).reverse ++ read) rest := by
  rcases escapedChar_cases character with
    ⟨code, small, rfl⟩ | rfl | rfl | ⟨quote, slash, visible, same⟩
  · interval_cases code <;> rfl
  · rfl
  · rfl
  · rw [same, encode_cons, encode_nil, List.append_nil]
    exact readStringFrom_plain (plain_encodeChar quote slash visible) read rest

/-- The octets of a written string behind its opening quote. -/
def bodyOctets (text : String) : Octets :=
  encode (text.toList.flatMap escapedChar) ++ [quoteMark]

theorem encode_writeString (text : String) :
    encode (writeString text) = quoteMark :: bodyOctets text := by
  rw [writeString, encode_cons, encode_append]
  rfl

/-- **A string that is written is read as what it was.** -/
theorem readString_body (text : String) (rest : Octets) :
    readString (bodyOctets text ++ rest) = .ok (text, rest) := by
  have gathers : ∀ (characters : List Char) (read : Gathered) (tail : Octets),
      readStringFrom .plain read (encode (characters.flatMap escapedChar) ++ tail) =
        readStringFrom .plain ((encode characters).reverse ++ read) tail := by
    intro characters
    induction characters with
    | nil => exact fun read tail => rfl
    | cons character characters ih =>
        intro read tail
        rw [List.flatMap_cons, encode_append, List.append_assoc, readStringFrom_escapedChar, ih,
          encode_cons, List.reverse_append, List.append_assoc]
  rw [readString, bodyOctets, List.append_assoc, gathers, List.append_nil, List.singleton_append,
    readStringFrom, if_pos rfl, Gathered.text, List.reverse_reverse, decode_encode]
  dsimp only
  rw [String.ofList_toList]
  rfl

end DownloadCache.Json
