import Mathlib.Algebra.GroupWithZero.Nat
import DownloadCache.ByteSize
import DownloadCache.Proofs.Decimal.Word
import DownloadCache.Proofs.Text.Trimming

/-!
# Byte sizes as they are written

A byte size is written as a decimal word and a unit letter or none, with blanks around either
(`ByteSize.Written`).  Cutting a trimmed text before its last character, if that is a unit letter,
and trimming again leaves the word of every such text, and a word of no other
(`ByteSize.written_iff`).

So a text is read as a byte size if it is written as one and the product of number and unit is a
word; the product is taken exactly, and one beyond the greatest word is the only fault that a text
which is written as a byte size can have, as long as its number is a word
(`ByteSize.read_as_written`).
-/

namespace DownloadCache

set_option autoImplicit false

open Text (AllBlank Trimmed isBlank trim)

/-! ## Words between blanks -/

/-- No digit is a blank. -/
theorem isBlank_of_isDigit {character : Char} (digit : character.isDigit = true) :
    isBlank character = false := by
  rw [Char.isDigit, Bool.and_eq_true, decide_eq_true_eq, decide_eq_true_eq] at digit
  have lower : 48 ≤ character.toNat := UInt32.le_iff_toNat_le.mp digit.1
  have upper : character.toNat ≤ 57 := UInt32.le_iff_toNat_le.mp digit.2
  by_contra blank
  rw [Bool.not_eq_false] at blank
  simp only [isBlank, Bool.or_eq_true, Bool.and_eq_true, decide_eq_true_eq, beq_iff_eq] at blank
  omega

/-- A word has no blank at either end. -/
theorem Decimal.Written.trimmed {text : List Char} {value : Nat}
    (written : Decimal.Written text value) : Trimmed text := by
  have visible : ∀ character ∈ text, isBlank character = false := by
    obtain ⟨digits, rfl | rfl, -, allDigits, -⟩ := written
    · exact fun character member => isBlank_of_isDigit (allDigits character member)
    · intro character member
      rcases List.mem_cons.mp member with rfl | member
      · decide
      · exact isBlank_of_isDigit (allDigits character member)
  exact ⟨fun character first => visible character (List.mem_of_head? first),
    fun character last => visible character (List.mem_of_getLast? last)⟩

/-- A word ends with a digit. -/
theorem Decimal.Written.exists_digit {text : List Char} {value : Nat}
    (written : Decimal.Written text value) :
    ∃ start digit, text = start ++ [digit] ∧ digit.isDigit = true := by
  obtain ⟨digits, same, nonempty, allDigits, -⟩ := written
  have last := List.dropLast_append_getLast nonempty
  have digit := allDigits _ (List.getLast_mem nonempty)
  obtain rfl | rfl := same
  · exact ⟨_, _, last.symm, digit⟩
  · exact ⟨'+' :: digits.dropLast, _, (congrArg ('+' :: ·) last).symm, digit⟩

namespace ByteSize

/-! ## Units -/

/-- How a unit is written: by a letter in either case, and one byte by none. -/
inductive UnitWritten : List Char → Nat → Prop
  | byte : UnitWritten [] 1
  | kilo {letter : Char} : letter ∈ ['K', 'k'] → UnitWritten [letter] (2 ^ 10)
  | mega {letter : Char} : letter ∈ ['M', 'm'] → UnitWritten [letter] (2 ^ 20)
  | giga {letter : Char} : letter ∈ ['G', 'g'] → UnitWritten [letter] (2 ^ 30)

theorem unitWritten_nil_iff {unit : Nat} : UnitWritten [] unit ↔ unit = 1 := by
  constructor
  · intro written
    cases written
    rfl
  · rintro rfl
    exact .byte

theorem unitWritten_iff {letter : Char} {unit : Nat} :
    UnitWritten [letter] unit ↔ unit? letter = some unit := by
  constructor
  · intro written
    cases written with
    | kilo either | mega either | giga either =>
        simp only [List.mem_cons, List.not_mem_nil, or_false] at either
        rcases either with rfl | rfl <;> rfl
  · intro known
    rw [unit?.eq_def] at known
    split at known
    · exact Option.some.inj known ▸ .kilo (by decide)
    · exact Option.some.inj known ▸ .kilo (by decide)
    · exact Option.some.inj known ▸ .mega (by decide)
    · exact Option.some.inj known ▸ .mega (by decide)
    · exact Option.some.inj known ▸ .giga (by decide)
    · exact Option.some.inj known ▸ .giga (by decide)
    · cases known

theorem UnitWritten.eq_nil_or_singleton {text : List Char} {unit : Nat}
    (written : UnitWritten text unit) : text = [] ∨ ∃ letter, text = [letter] := by
  cases written with
  | byte => exact .inl rfl
  | kilo | mega | giga => exact .inr ⟨_, rfl⟩

theorem UnitWritten.pos {text : List Char} {unit : Nat} (written : UnitWritten text unit) :
    0 < unit := by
  cases written <;> decide

/-- No unit letter is a blank. -/
theorem isBlank_of_unit? {letter : Char} {unit : Nat} (known : unit? letter = some unit) :
    isBlank letter = false := by
  have written := unitWritten_iff.mpr known
  cases written with
  | kilo either | mega either | giga either =>
      simp only [List.mem_cons, List.not_mem_nil, or_false] at either
      rcases either with rfl | rfl <;> decide

/-- No digit is a unit letter. -/
theorem unit?_of_isDigit {character : Char} (digit : character.isDigit = true) :
    unit? character = none := by
  rw [unit?.eq_def]
  split <;> first | rfl | exact absurd digit (by decide)

/-! ## Cutting -/

/-- A unit letter at the end is cut off. -/
theorem splitUnit_append {start : List Char} {letter : Char} {unit : Nat}
    (known : unit? letter = some unit) : splitUnit (start ++ [letter]) = (start, unit) := by
  rw [splitUnit, List.getLast?_concat, List.dropLast_concat]
  simp only [Option.bind_some, known]

/-- A text that does not end with a unit letter is left whole. -/
theorem splitUnit_of_no_unit {text : List Char}
    (unknown : ∀ letter ∈ text.getLast?, unit? letter = none) : splitUnit text = (text, 1) := by
  rw [splitUnit, Option.bind_eq_none_iff.mpr unknown]

/-- What is cut off is the unit as it is written. -/
theorem exists_splitUnit (text : List Char) :
    ∃ letter, UnitWritten letter (splitUnit text).2 ∧ text = (splitUnit text).1 ++ letter := by
  cases known : text.getLast?.bind unit? with
  | none =>
      rw [splitUnit, known]
      exact ⟨[], .byte, (List.append_nil text).symm⟩
  | some unit =>
      obtain ⟨letter, last, meant⟩ := Option.bind_eq_some_iff.mp known
      obtain ⟨start, rfl⟩ := List.getLast?_eq_some_iff.mp last
      rw [splitUnit_append meant]
      exact ⟨[letter], unitWritten_iff.mpr meant, rfl⟩

/-! ## Sizes -/

/-- How a byte size is written: a number and its unit, with blanks around either. -/
def Written (text : List Char) (count unit : Nat) : Prop :=
  ∃ before number between letter behind, AllBlank before ∧ Decimal.Written number count ∧
    AllBlank between ∧ UnitWritten letter unit ∧ AllBlank behind ∧
    text = before ++ (number ++ (between ++ (letter ++ behind)))

theorem splitUnit_trim_of_written {before number between letter behind : List Char}
    {count unit : Nat} (blankBefore : AllBlank before) (written : Decimal.Written number count)
    (blankBetween : AllBlank between) (unitWritten : UnitWritten letter unit)
    (blankBehind : AllBlank behind) :
    trim (splitUnit (trim (before ++ (number ++ (between ++ (letter ++ behind)))))).1 = number ∧
      (splitUnit (trim (before ++ (number ++ (between ++ (letter ++ behind)))))).2 = unit := by
  obtain ⟨start, digit, rfl, isDigit⟩ := written.exists_digit
  have trimmed := written.trimmed
  obtain rfl | ⟨letter, rfl⟩ := unitWritten.eq_nil_or_singleton
  · -- Without a letter, the blanks on both sides of it are one stretch behind the number.
    have whole : trim (before ++ (start ++ [digit] ++ (between ++ ([] ++ behind)))) =
        start ++ [digit] :=
      Text.trim_eq_iff.mpr ⟨trimmed, before, between ++ behind, blankBefore,
        blankBetween.append blankBehind, rfl⟩
    have uncut : splitUnit (start ++ [digit]) = (start ++ [digit], 1) :=
      splitUnit_of_no_unit fun character last => by
        rw [List.getLast?_concat, Option.mem_some_iff] at last
        exact unit?_of_isDigit (last ▸ isDigit)
    rw [whole, uncut, trimmed.trim_eq, unitWritten_nil_iff.mp unitWritten]
    exact ⟨rfl, rfl⟩
  · have known := unitWritten_iff.mp unitWritten
    have ends : Trimmed (start ++ [digit] ++ between ++ [letter]) := by
      constructor
      · cases start with
        | nil | cons character rest => exact trimmed.start
      · rw [List.getLast?_concat]
        rintro character ⟨⟩
        exact isBlank_of_unit? known
    have whole : trim (before ++ (start ++ [digit] ++ (between ++ ([letter] ++ behind)))) =
        start ++ [digit] ++ between ++ [letter] :=
      Text.trim_eq_iff.mpr ⟨ends, before, behind, blankBefore, blankBehind, by
        simp only [List.append_assoc]⟩
    have number : trim (start ++ [digit] ++ between) = start ++ [digit] :=
      Text.trim_eq_iff.mpr ⟨trimmed, [], between, Text.allBlank_nil, blankBetween, rfl⟩
    rw [whole, splitUnit_append known, number]
    exact ⟨rfl, rfl⟩

/-- **Trimming, cutting off the unit and trimming again leaves the number as it is written.** -/
theorem written_iff {text : List Char} {count unit : Nat} : Written text count unit ↔
    Decimal.Written (trim (splitUnit (trim text)).1) count ∧ (splitUnit (trim text)).2 = unit := by
  constructor
  · rintro ⟨before, number, between, letter, behind, blankBefore, written, blankBetween,
      unitWritten, blankBehind, rfl⟩
    obtain ⟨kept, cut⟩ := splitUnit_trim_of_written blankBefore written blankBetween unitWritten
      blankBehind
    rw [kept]
    exact ⟨written, cut⟩
  · rintro ⟨written, rfl⟩
    obtain ⟨before, behind, blankBefore, blankBehind, whole⟩ :=
      Text.exists_eq_trim_between_blanks text
    obtain ⟨letter, unitWritten, cut⟩ := exists_splitUnit (trim text)
    obtain ⟨lead, between, blankLead, blankBetween, inner⟩ :=
      Text.exists_eq_trim_between_blanks (splitUnit (trim text)).1
    refine ⟨before ++ lead, _, between, letter, behind, blankBefore.append blankLead, written,
      blankBetween, unitWritten, blankBehind, ?_⟩
    calc text = before ++ (trim text ++ behind) := whole
      _ = before ++ ((splitUnit (trim text)).1 ++ letter ++ behind) := by rw [← cut]
      _ = before ++ lead ++ (trim (splitUnit (trim text)).1 ++
            (between ++ (letter ++ behind))) := by
        conv_lhs => rw [inner]
        simp only [List.append_assoc]

/-- A text is the byte size of one number and one unit at most. -/
theorem Written.unique {text : List Char} {count other unit unit' : Nat}
    (written : Written text count unit) (again : Written text other unit') :
    count = other ∧ unit = unit' := by
  obtain ⟨number, cut⟩ := written_iff.mp written
  obtain ⟨number', cut'⟩ := written_iff.mp again
  exact ⟨number.unique number', cut.symm.trans cut'⟩

theorem Written.le_mul {text : List Char} {count unit : Nat} (written : Written text count unit) :
    count ≤ count * unit := by
  obtain ⟨_, _, _, _, _, -, -, -, unitWritten, -⟩ := written
  exact Nat.le_mul_of_pos_right count unitWritten.pos

/-! ## Reading -/

/-- A text is malformed unless it is written as a byte size whose number is a word. -/
theorem exists_read_malformed {text : String}
    (malformed : ∀ count unit, Written text.toList count unit → 2 ^ 64 ≤ count) :
    ∃ cause, read text = .error (.malformed text cause) := by
  rw [read]
  dsimp only
  cases number : Decimal.readWord (trim (splitUnit (trim text.toList)).1) with
  | error cause => exact ⟨cause, rfl⟩
  | ok count =>
      have written := written_iff.mpr ⟨Decimal.readWord_eq_ok_iff.mp number, rfl⟩
      exact absurd count.toNat_lt (Nat.not_lt.mpr (malformed _ _ written))

/-- The product of number and unit is taken exactly. -/
theorem Written.read_eq {text : String} {count unit : Nat}
    (written : Written text.toList count unit) (word : count < 2 ^ 64) :
    read text = if 2 ^ 64 ≤ count * unit then .error (.overflow text)
      else .ok (UInt64.ofNat (count * unit)) := by
  have exact : (UInt64.ofNat count).toNat = count := UInt64.toNat_ofNat_of_lt' word
  obtain ⟨number, cut⟩ := written_iff.mp written
  rw [← exact] at number
  rw [read]
  dsimp only
  rw [Decimal.readWord_eq_ok_iff.mpr number, cut]
  dsimp only
  rw [exact]
  exact if_congr Iff.rfl rfl rfl

/-- A text that is written as a byte size is malformed if its number is no word, overflows if only
the product is none, and else is read as the product. -/
theorem Written.read_cases {text : String} {count unit : Nat}
    (written : Written text.toList count unit) :
    (2 ^ 64 ≤ count ∧ ∃ cause, read text = .error (.malformed text cause)) ∨
    (count < 2 ^ 64 ∧ 2 ^ 64 ≤ count * unit ∧ read text = .error (.overflow text)) ∨
    (count * unit < 2 ^ 64 ∧ read text = .ok (UInt64.ofNat (count * unit))) := by
  by_cases word : count < 2 ^ 64
  · by_cases large : 2 ^ 64 ≤ count * unit
    · exact .inr (.inl ⟨word, large, by rw [written.read_eq word, if_pos large]⟩)
    · exact .inr (.inr ⟨Nat.not_le.mp large, by rw [written.read_eq word, if_neg large]⟩)
  · refine .inl ⟨Nat.not_lt.mp word, exists_read_malformed fun other unit' again => ?_⟩
    rw [← (written.unique again).1]
    exact Nat.not_lt.mp word

theorem Written.read_eq_ok_iff {text : String} {count unit : Nat}
    (written : Written text.toList count unit) {size : UInt64} :
    read text = .ok size ↔ count * unit < 2 ^ 64 ∧ size.toNat = count * unit := by
  have atLeast := written.le_mul
  rcases written.read_cases with ⟨large, cause, read⟩ | ⟨-, large, read⟩ | ⟨small, read⟩
  · rw [read]
    exact ⟨nofun, fun ⟨small, _⟩ => by omega⟩
  · rw [read]
    exact ⟨nofun, fun ⟨small, _⟩ => absurd small (Nat.not_lt.mpr large)⟩
  · rw [read, Except.ok.injEq, ← UInt64.toNat_inj, UInt64.toNat_ofNat_of_lt' small]
    exact ⟨fun same => ⟨small, same.symm⟩, fun ⟨_, same⟩ => same.symm⟩

theorem Written.read_eq_overflow_iff {text : String} {count unit : Nat}
    (written : Written text.toList count unit) :
    read text = .error (.overflow text) ↔ count < 2 ^ 64 ∧ 2 ^ 64 ≤ count * unit := by
  rcases written.read_cases with ⟨large, cause, read⟩ | ⟨word, large, read⟩ | ⟨small, read⟩
  · rw [read]
    exact ⟨nofun, fun ⟨word, _⟩ => absurd word (Nat.not_lt.mpr large)⟩
  · exact ⟨fun _ => ⟨word, large⟩, fun _ => read⟩
  · rw [read]
    exact ⟨nofun, fun ⟨_, large⟩ => absurd small (Nat.not_lt.mpr large)⟩

theorem Written.malformed_iff {text : String} {count unit : Nat}
    (written : Written text.toList count unit) :
    (∃ cause, read text = .error (.malformed text cause)) ↔ 2 ^ 64 ≤ count := by
  have atLeast := written.le_mul
  rcases written.read_cases with ⟨large, malformed⟩ | ⟨word, -, read⟩ | ⟨small, read⟩
  · exact ⟨fun _ => large, fun _ => malformed⟩
  · rw [read]
    exact ⟨nofun, fun large => absurd word (Nat.not_lt.mpr large)⟩
  · rw [read]
    exact ⟨nofun, fun large => by omega⟩

/-- The number ends at a character of the text. -/
theorem isValid_splitUnit (text : String) :
    (String.ofList (splitUnit (trim text.toList)).1).rawEndPos.IsValid (Text.trimmed text) := by
  obtain ⟨letter, -, cut⟩ := exists_splitUnit (trim text.toList)
  refine String.Pos.Raw.isValid_iff_exists_append.mpr
    ⟨_, String.ofList letter, ?_, rfl⟩
  rw [← String.ofList_append, ← cut, Text.trimmed]

/-- **A text is read as a byte size if it is written as one that is a word, and then as the exact
product of its number and its unit.**  If only the product is too large, it overflows; if the number
is too large, or if the text is not written as a byte size, it is malformed.  Wherever the unit is
cut off, a character ends. -/
theorem read_as_written (text : String) :
    (∀ size : UInt64, read text = .ok size ↔ ∃ count unit, Written text.toList count unit ∧
      count * unit < 2 ^ 64 ∧ size.toNat = count * unit) ∧
    (read text = .error (.overflow text) ↔ ∃ count unit, Written text.toList count unit ∧
      count < 2 ^ 64 ∧ 2 ^ 64 ≤ count * unit) ∧
    ((∃ cause, read text = .error (.malformed text cause)) ↔
      ∀ count unit, Written text.toList count unit → 2 ^ 64 ≤ count) ∧
    (String.ofList (splitUnit (trim text.toList)).1).rawEndPos.IsValid (Text.trimmed text) := by
  by_cases spelled : ∃ count unit, Written text.toList count unit
  · obtain ⟨count, unit, written⟩ := spelled
    refine ⟨fun size => ?_, ?_, ?_, isValid_splitUnit text⟩
    · rw [written.read_eq_ok_iff]
      refine ⟨fun exact => ⟨count, unit, written, exact⟩, ?_⟩
      rintro ⟨other, unit', again, exact⟩
      obtain ⟨rfl, rfl⟩ := written.unique again
      exact exact
    · rw [written.read_eq_overflow_iff]
      refine ⟨fun tooLarge => ⟨count, unit, written, tooLarge⟩, ?_⟩
      rintro ⟨other, unit', again, tooLarge⟩
      obtain ⟨rfl, rfl⟩ := written.unique again
      exact tooLarge
    · rw [written.malformed_iff]
      refine ⟨fun large other unit' again => ?_, fun large => large count unit written⟩
      rwa [← (written.unique again).1]
  · have never : ∀ count unit, ¬Written text.toList count unit := fun count unit written =>
      spelled ⟨count, unit, written⟩
    have malformed := exists_read_malformed fun count unit written =>
      absurd written (never count unit)
    obtain ⟨cause, malformed⟩ := malformed
    rw [malformed]
    refine ⟨fun size => ⟨nofun, ?_⟩, ⟨nofun, ?_⟩, ?_, isValid_splitUnit text⟩
    · rintro ⟨count, unit, written, -⟩
      exact absurd written (never count unit)
    · rintro ⟨count, unit, written, -⟩
      exact absurd written (never count unit)
    · exact ⟨fun _ count unit written => absurd written (never count unit),
        fun _ => ⟨cause, rfl⟩⟩

end ByteSize

end DownloadCache
