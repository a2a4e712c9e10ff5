import DownloadCache.Text.Utf8
import Mathlib.Tactic.IntervalCases

/-!
# Text as octets and back

The octets of a text spell the text (`decode_encode`).  The machine that reads octets takes those of
a character one by one and ends with the character (`decodeFrom_encodeChar`): the first octet gives
the leading bits and the range of the second, every further one gives six bits.

Octets below 128 stand for themselves: a character of the ASCII class is one such octet, and no
octet of any other character is below 128 (`le_of_mem_encodeChar`).  So what is told from a text by
its ASCII characters is told from its octets as well.
-/

namespace DownloadCache.Text.Utf8

set_option autoImplicit false

open String (utf8EncodeChar)

/-! ## Octets of a character -/

theorem encode_nil : encode [] = [] := rfl

theorem encode_cons (character : Char) (text : List Char) :
    encode (character :: text) = utf8EncodeChar character ++ encode text := rfl

theorem encode_append (first second : List Char) :
    encode (first ++ second) = encode first ++ encode second :=
  List.flatMap_append

/-- A character of the ASCII class is one octet. -/
theorem encodeChar_ascii {character : Char} (ascii : character.toNat < 128) :
    utf8EncodeChar character = [UInt8.ofNat character.toNat] := by
  rw [utf8EncodeChar]
  exact if_pos (Nat.le_of_lt_succ ascii)

/-- No octet of a character beyond the ASCII class is below 128. -/
theorem le_of_mem_encodeChar {character : Char} (beyond : 128 ≤ character.toNat) {octet : UInt8}
    (member : octet ∈ utf8EncodeChar character) : 128 ≤ octet.toNat := by
  have beyond : ¬character.val.toNat ≤ 127 := Nat.not_le.mpr beyond
  rw [utf8EncodeChar] at member
  simp only [if_neg beyond] at member
  split at member
  · simp only [List.mem_cons, List.not_mem_nil, or_false] at member
    rcases member with rfl | rfl <;> rw [UInt8.toNat_ofNat'] <;> omega
  split at member
  · simp only [List.mem_cons, List.not_mem_nil, or_false] at member
    rcases member with rfl | rfl | rfl <;> rw [UInt8.toNat_ofNat'] <;> omega
  · simp only [List.mem_cons, List.not_mem_nil, or_false] at member
    rcases member with rfl | rfl | rfl | rfl <;> rw [UInt8.toNat_ofNat'] <;> omega

/-- An octet below 128 is among those of a text if its character is in the text. -/
theorem mem_encode_ascii_iff {text : List Char} {code : Nat} (ascii : code < 128) :
    UInt8.ofNat code ∈ encode text ↔ Char.ofNat code ∈ text := by
  have code_eq : (Char.ofNat code).toNat = code := by
    rw [Char.ofNat, dif_pos (.inl (by omega))]
    rfl
  rw [encode, List.mem_flatMap]
  constructor
  · rintro ⟨character, member, octet⟩
    by_cases single : character.toNat < 128
    · rw [encodeChar_ascii single, List.mem_singleton] at octet
      have same := congrArg UInt8.toNat octet
      rw [UInt8.toNat_ofNat', UInt8.toNat_ofNat', Nat.mod_eq_of_lt (by omega),
        Nat.mod_eq_of_lt (by omega)] at same
      rw [same, Char.ofNat_toNat]
      exact member
    · have large := le_of_mem_encodeChar (Nat.not_lt.mp single) octet
      rw [UInt8.toNat_ofNat'] at large
      omega
  · intro member
    refine ⟨_, member, ?_⟩
    rw [encodeChar_ascii (by omega), code_eq]
    exact List.mem_singleton_self _

/-! ## Reactions -/

/-- The first octet of two gives five bits. -/
theorem start_two {bits : Nat} (low : 2 ≤ bits) (high : bits < 32) :
    start (UInt8.ofNat (bits + 192)) = .continued ⟨bits, 1, 0x80, 0xbf, 1⟩ := by
  interval_cases bits <;> rfl

/-- The first octet of three gives four bits, and bounds the second one if overlong forms or
surrogates could follow. -/
theorem start_three {bits : Nat} (high : bits < 16) :
    start (UInt8.ofNat (bits + 224)) =
      .continued ⟨bits, 2, if bits = 0 then 0xa0 else 0x80, if bits = 13 then 0x9f else 0xbf,
        1⟩ := by
  interval_cases bits <;> rfl

/-- The first octet of four gives three bits, and bounds the second one if overlong forms or values
beyond the last code point could follow. -/
theorem start_four {bits : Nat} (high : bits ≤ 4) :
    start (UInt8.ofNat (bits + 240)) =
      .continued ⟨bits, 3, if bits = 0 then 0x90 else 0x80, if bits = 4 then 0x8f else 0xbf,
        1⟩ := by
  interval_cases bits <;> rfl

section Further

variable (sound : Nat) (read : List Char) {code missing taken bits : Nat} {low high : UInt8}
  (rest : List UInt8)

theorem Partial.next_eq (small : bits < 64) (lower : low.toNat ≤ bits + 128)
    (upper : bits + 128 ≤ high.toNat) :
    Partial.next ⟨code, missing, low, high, taken⟩ (UInt8.ofNat (bits + 128)) =
      if missing ≤ 1 then .complete (Char.ofNat (code * 64 + bits))
      else .continued ⟨code * 64 + bits, missing - 1, 0x80, 0xbf, taken + 1⟩ := by
  have octet : (UInt8.ofNat (bits + 128)).toNat = bits + 128 := by
    rw [UInt8.toNat_ofNat', Nat.mod_eq_of_lt (by omega)]
  have within : low ≤ UInt8.ofNat (bits + 128) ∧ UInt8.ofNat (bits + 128) ≤ high := by
    rw [UInt8.le_iff_toNat_le, UInt8.le_iff_toNat_le, octet]
    exact ⟨lower, upper⟩
  rw [next, if_pos within]
  simp only [octet, Nat.add_sub_cancel]

/-- An octet within a character gives six bits. -/
theorem decodeFrom_inner (small : bits < 64) (lower : low.toNat ≤ bits + 128)
    (upper : bits + 128 ≤ high.toNat) (more : 1 < missing) :
    decodeFrom sound read (some ⟨code, missing, low, high, taken⟩)
        (UInt8.ofNat (bits + 128) :: rest) =
      decodeFrom sound read (some ⟨code * 64 + bits, missing - 1, 0x80, 0xbf, taken + 1⟩)
        rest := by
  rw [decodeFrom, Partial.next_eq small lower upper, if_neg (Nat.not_le.mpr more)]

/-- The last octet of a character gives the last six bits. -/
theorem decodeFrom_last (small : bits < 64) (lower : low.toNat ≤ bits + 128)
    (upper : bits + 128 ≤ high.toNat) :
    decodeFrom sound read (some ⟨code, 1, low, high, taken⟩) (UInt8.ofNat (bits + 128) :: rest) =
      decodeFrom (sound + taken + 1) (Char.ofNat (code * 64 + bits) :: read) none rest := by
  rw [decodeFrom, Partial.next_eq small lower upper, if_pos (Nat.le_refl 1)]

end Further

/-! ## Reading back -/

/-- **The octets of a character are read as the character.** -/
theorem decodeFrom_encodeChar (sound : Nat) (read : List Char) (character : Char)
    (rest : List UInt8) :
    decodeFrom sound read none (utf8EncodeChar character ++ rest) =
      decodeFrom (sound + (utf8EncodeChar character).length) (character :: read) none rest := by
  obtain ⟨value, value_eq⟩ : ∃ value, value = character.val.toNat := ⟨_, rfl⟩
  have whole : Char.ofNat value = character := by
    rw [value_eq]
    exact Char.ofNat_toNat character
  have scalar : value < 0xd800 ∨ 0xdfff < value ∧ value < 0x110000 := by
    rw [value_eq]
    exact character.valid
  -- Without bounds of its own, an octet within a character has six free bits.
  have lower : ∀ bits, (0x80 : UInt8).toNat ≤ bits + 128 := fun bits => Nat.le_add_left 128 bits
  have upper : ∀ {bits}, bits < 64 → bits + 128 ≤ (0xbf : UInt8).toNat := fun small =>
    Nat.add_le_add_right (Nat.le_of_lt_succ small) 128
  have free : ∀ number, number % 64 < 64 := fun number => Nat.mod_lt number (by decide)
  rw [utf8EncodeChar, ← value_eq]
  split
  · rename_i one
    rw [List.singleton_append, decodeFrom_ascii, UInt8.toNat_ofNat', Nat.mod_eq_of_lt (by omega),
      whole]
    · rfl
    · rw [UInt8.lt_iff_toNat_lt, UInt8.toNat_ofNat', Nat.mod_eq_of_lt (by omega)]
      exact Nat.lt_of_le_of_lt one (by decide)
  rename_i beyond
  split
  · rename_i two
    have bits : value / 64 % 32 * 64 + value % 64 = value := by omega
    simp only [List.cons_append, List.nil_append]
    rw [decodeFrom, start_two (by omega) (by omega)]
    dsimp only
    rw [decodeFrom_last _ _ _ (free _) (lower _) (upper (free _)), bits, whole]
    rfl
  rename_i beyond
  split
  · rename_i three
    have bits : (value / 4096 % 16 * 64 + value / 64 % 64) * 64 + value % 64 = value := by omega
    simp only [List.cons_append, List.nil_append]
    rw [decodeFrom, start_three (by omega)]
    dsimp only
    rw [decodeFrom_inner _ _ _ (free _) (by split <;> simp; omega)
        (by split <;> (simp; omega)) (by decide),
      decodeFrom_last _ _ _ (free _) (lower _) (upper (free _)), bits, whole]
    rfl
  · rename_i four
    have bits : ((value / 262144 % 8 * 64 + value / 4096 % 64) * 64 + value / 64 % 64) * 64 +
        value % 64 = value := by omega
    simp only [List.cons_append, List.nil_append]
    rw [decodeFrom, start_four (by omega)]
    dsimp only
    rw [decodeFrom_inner _ _ _ (free _) (by split <;> simp; omega)
        (by split <;> (simp; omega)) (by decide),
      decodeFrom_inner _ _ _ (free _) (lower _) (upper (free _)) (by decide),
      decodeFrom_last _ _ _ (free _) (lower _) (upper (free _)), bits, whole]
    rfl

/-- **The octets of a text spell the text.** -/
theorem decode_encode (text : List Char) : decode (encode text) = .ok text := by
  have onward : ∀ (sound : Nat) (read : List Char),
      decodeFrom sound read none (encode text) = .ok (read.reverse ++ text) := by
    induction text with
    | nil => exact fun sound read => by rw [encode_nil, decodeFrom, List.append_nil]
    | cons character rest ih =>
        intro sound read
        rw [encode_cons, decodeFrom_encodeChar, ih, List.reverse_cons, List.append_assoc,
          List.singleton_append]
  rw [decode, onward, List.reverse_nil, List.nil_append]

end DownloadCache.Text.Utf8
