import DownloadCache.Config
import DownloadCache.Proofs.Text.Trimming
import Mathlib.Data.List.Forall2

/-!
# Switches as they are written

A switch is written as one of eight words, four for each of its values, in which any letter may be a
capital, with blanks around it (`SwitchWritten`).  These are the texts that are read as a switch, and
each is read as the value that its word stands for (`readSwitch_eq_ok_iff`); all others are refused
(`exists_readSwitch_eq_error_iff`).
-/

namespace DownloadCache

set_option autoImplicit false

open Text (AllBlank Trimmed isBlank trim)

/-- The words for a switch that is on, and those for one that is off. -/
def switchWords : Bool → List String
  | true => ["1", "true", "yes", "on"]
  | false => ["0", "false", "no", "off"]

/-- Whether a text is a word, but that any small letter of it may be a capital in the text. -/
def InAnyCase (word text : List Char) : Prop :=
  List.Forall₂ (fun letter character => character = letter ∨ character = letter.toUpper) word text

/-- How a switch is written: as one of its words, with blanks around it. -/
def SwitchWritten (value : Bool) (text : List Char) : Prop :=
  ∃ word ∈ switchWords value, ∃ core, InAnyCase word.toList core ∧
    ∃ before behind, AllBlank before ∧ AllBlank behind ∧ text = before ++ (core ++ behind)

/-! ## Letters -/

theorem toNat_lowerAscii (character : Char) : (lowerAscii character).toNat =
    if 65 ≤ character.toNat ∧ character.toNat ≤ 90 then character.toNat + 32
    else character.toNat := by
  rw [lowerAscii]
  change (if 65 ≤ character.toNat ∧ character.toNat ≤ 90 then _ else _ : Char).toNat = _
  split
  · rename_i capital
    have valid : (character.toNat + 32).isValidChar := .inl (by omega)
    rw [Char.ofNat, dif_pos valid]
    rfl
  · rfl

theorem toNat_toUpper (character : Char) : character.toUpper.toNat =
    if 97 ≤ character.toNat ∧ character.toNat ≤ 122 then character.toNat - 32
    else character.toNat := by
  change (dite ('a'.val ≤ character.val ∧ character.val ≤ 'z'.val) _ _ : Char).toNat = _
  split <;> rename_i small
  · have small : 97 ≤ character.toNat ∧ character.toNat ≤ 122 := small
    rw [if_pos small]
    change (character.val + ('A'.val - 'a'.val)).toNat = character.val.toNat - 32
    have small : 97 ≤ character.val.toNat ∧ character.val.toNat ≤ 122 := small
    rw [UInt32.toNat_add, show ('A'.val - 'a'.val).toNat = 4294967264 from rfl]
    omega
  · exact (if_neg small).symm

/-- What is no capital is the small form of itself and of its capital, and of nothing else. -/
theorem lowerAscii_eq_iff {letter character : Char}
    (small : letter.toNat < 65 ∨ 90 < letter.toNat) :
    lowerAscii character = letter ↔ character = letter ∨ character = letter.toUpper := by
  rw [← Char.toNat_inj, ← Char.toNat_inj, ← Char.toNat_inj, toNat_lowerAscii, toNat_toUpper]
  split <;> split <;> omega

/-! ## Words -/

/-- The letters of the words are no capitals, and neither they nor their capitals are blank. -/
theorem letter_of_mem_switchWords {value : Bool} {word : String}
    (listed : word ∈ switchWords value) :
    ∀ letter ∈ word.toList, (letter.toNat < 65 ∨ 90 < letter.toNat) ∧ isBlank letter = false ∧
      isBlank letter.toUpper = false := by
  have checked : ((switchWords true ++ switchWords false).all fun word =>
      word.toList.all fun letter => !(65 ≤ letter.toNat && letter.toNat ≤ 90) &&
        !isBlank letter && !isBlank letter.toUpper) = true := by decide +kernel
  have member : word ∈ switchWords true ++ switchWords false := by
    cases value with
    | true => exact List.mem_append_left _ listed
    | false => exact List.mem_append_right _ listed
  intro letter within
  have fits := List.all_eq_true.mp (List.all_eq_true.mp checked word member) letter within
  simpa [and_assoc] using fits

/-- A text is a word if its small form is the word. -/
theorem inAnyCase_iff {value : Bool} {word : String} (listed : word ∈ switchWords value)
    {text : List Char} : InAnyCase word.toList text ↔ text.map lowerAscii = word.toList := by
  have letters := letter_of_mem_switchWords listed
  generalize word.toList = word at letters
  induction word generalizing text with
  | nil => cases text <;> simp [InAnyCase]
  | cons letter rest ih =>
      rw [List.forall_mem_cons] at letters
      cases text with
      | nil => simp [InAnyCase]
      | cons character further =>
          have first := @lowerAscii_eq_iff letter character letters.1.1
          rw [InAnyCase, List.forall₂_cons, List.map_cons, List.cons.injEq, first]
          exact and_congr_right fun _ => ih letters.2

/-- A text that is a word has no blank at either end. -/
theorem InAnyCase.trimmed {value : Bool} {word : String} (listed : word ∈ switchWords value)
    {text : List Char} (inAnyCase : InAnyCase word.toList text) : Trimmed text := by
  have visible : ∀ character ∈ text, isBlank character = false := by
    have letters := letter_of_mem_switchWords listed
    rw [InAnyCase] at inAnyCase
    generalize word.toList = word at letters inAnyCase
    induction inAnyCase with
    | nil => nofun
    | cons first _ ih =>
        rw [List.forall_mem_cons] at letters ⊢
        obtain ⟨-, small, capital⟩ := letters.1
        exact ⟨by rcases first with rfl | rfl <;> assumption, ih letters.2⟩
  exact ⟨fun character first => visible character (List.mem_of_head? first),
    fun character last => visible character (List.mem_of_getLast? last)⟩

/-! ## Reading -/

/-- A text means a switch if its trimmed form in small letters is a word for it. -/
theorem readSwitch_eq_ok_iff_mem {text : String} {value : Bool} :
    readSwitch text = .ok value ↔
      String.ofList ((trim text.toList).map lowerAscii) ∈ switchWords value := by
  rw [readSwitch]
  generalize String.ofList ((trim text.toList).map lowerAscii) = word
  have apart : ∀ word ∈ switchWords true, word ∉ switchWords false := by decide
  split
  · rename_i on
    cases value with
    | true => exact iff_of_true rfl on
    | false => exact iff_of_false nofun (apart word on)
  · rename_i notOn
    split
    · rename_i off
      cases value with
      | true => exact iff_of_false nofun notOn
      | false => exact iff_of_true rfl off
    · rename_i notOff
      cases value with
      | true => exact iff_of_false nofun notOn
      | false => exact iff_of_false nofun notOff

/-- **A text is read as a switch if it is written as one.** -/
theorem readSwitch_eq_ok_iff {text : String} {value : Bool} :
    readSwitch text = .ok value ↔ SwitchWritten value text.toList := by
  rw [readSwitch_eq_ok_iff_mem]
  constructor
  · intro listed
    refine ⟨_, listed, trim text.toList, (inAnyCase_iff listed).mpr ?_,
      Text.exists_eq_trim_between_blanks _⟩
    rw [String.toList_ofList]
  · rintro ⟨word, listed, core, inAnyCase, between⟩
    rw [Text.trim_eq_iff.mpr ⟨inAnyCase.trimmed listed, between⟩, (inAnyCase_iff listed).mp inAnyCase,
      String.ofList_toList]
    exact listed

/-- All other texts are refused. -/
theorem exists_readSwitch_eq_error_iff {text : String} :
    (∃ cause, readSwitch text = .error cause) ↔ ∀ value, ¬SwitchWritten value text.toList := by
  simp only [← readSwitch_eq_ok_iff]
  cases readSwitch text <;> simp

end DownloadCache
