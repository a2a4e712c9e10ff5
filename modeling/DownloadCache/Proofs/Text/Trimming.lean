import DownloadCache.Text.Blank
import Mathlib.Data.List.DropRight

/-!
# Trimmed text

A text is its trimmed text with blanks on both sides, and the trimmed text has no blank at either
end; no other part of the text is like that (`trim_eq_iff`).  So whatever is read after trimming is
read from every text that has blanks around it, and from no others.
-/

namespace DownloadCache.Text

set_option autoImplicit false

/-! ## Blanks and ends -/

/-- Whether a text has nothing but blanks. -/
def AllBlank (text : List Char) : Prop :=
  ∀ character ∈ text, isBlank character = true

instance (text : List Char) : Decidable (AllBlank text) :=
  List.decidableBAll (fun character => isBlank character = true) text

theorem allBlank_nil : AllBlank [] := nofun

theorem AllBlank.append {first second : List Char} (blank : AllBlank first)
    (further : AllBlank second) : AllBlank (first ++ second) :=
  List.forall_mem_append.mpr ⟨blank, further⟩

theorem AllBlank.reverse {text : List Char} (blank : AllBlank text) : AllBlank text.reverse :=
  fun character member => blank character (List.mem_reverse.mp member)

/-- Whether a text has a blank at neither end. -/
structure Trimmed (text : List Char) : Prop where
  start : ∀ character ∈ text.head?, isBlank character = false
  final : ∀ character ∈ text.getLast?, isBlank character = false

/-! ## The start -/

/-- Blanks in front are dropped, and nothing behind the first character that is none. -/
theorem trimStart_append {before core : List Char} (blank : AllBlank before)
    (start : ∀ character ∈ core.head?, isBlank character = false) :
    trimStart (before ++ core) = core := by
  rw [trimStart, List.dropWhile_append_of_pos blank]
  cases core with
  | nil => rfl
  | cons character rest =>
      have visible : ¬isBlank character = true := by rw [start character rfl]; decide
      exact List.dropWhile_cons_of_neg visible

theorem exists_eq_append_trimStart (text : List Char) :
    ∃ before, AllBlank before ∧ text = before ++ trimStart text :=
  ⟨text.takeWhile isBlank, fun _ member => List.mem_takeWhile_imp member,
    List.takeWhile_append_dropWhile.symm⟩

theorem isBlank_head_trimStart {text : List Char} :
    ∀ character ∈ (trimStart text).head?, isBlank character = false := by
  intro character member
  have stopped := List.head?_dropWhile_not isBlank text
  rw [trimStart] at member
  rw [member] at stopped
  exact stopped

/-! ## Both ends -/

theorem trimEnd_eq_reverse (text : List Char) : trimEnd text = (trimStart text.reverse).reverse :=
  rfl

/-- Blanks behind are dropped, and nothing in front of the last character that is none. -/
theorem trimEnd_append {core behind : List Char} (blank : AllBlank behind)
    (final : ∀ character ∈ core.getLast?, isBlank character = false) :
    trimEnd (core ++ behind) = core := by
  have turned : trimStart (behind.reverse ++ core.reverse) = core.reverse := by
    refine trimStart_append blank.reverse ?_
    rwa [List.head?_reverse]
  rw [trimEnd_eq_reverse, List.reverse_append, turned, List.reverse_reverse]

theorem exists_eq_trimEnd_append (text : List Char) :
    ∃ behind, AllBlank behind ∧ text = trimEnd text ++ behind := by
  obtain ⟨before, blank, whole⟩ := exists_eq_append_trimStart text.reverse
  refine ⟨before.reverse, blank.reverse, ?_⟩
  rw [trimEnd_eq_reverse, ← List.reverse_append, ← whole, List.reverse_reverse]

/-- What is left of a text has no blank at either end. -/
theorem trimmed_trim (text : List Char) : Trimmed (trim text) where
  start := by
    intro character member
    obtain ⟨behind, -, whole⟩ := exists_eq_trimEnd_append (trimStart text)
    have kept : (trimEnd (trimStart text)).head? = some character := member
    have first : (trimStart text).head? = some character := by
      rw [whole, List.head?_append, kept]
      rfl
    exact isBlank_head_trimStart character first
  final := by
    rw [trim, trimEnd_eq_reverse, List.getLast?_reverse]
    exact isBlank_head_trimStart

theorem exists_eq_trim_between_blanks (text : List Char) :
    ∃ before behind, AllBlank before ∧ AllBlank behind ∧
      text = before ++ (trim text ++ behind) := by
  obtain ⟨before, blankBefore, whole⟩ := exists_eq_append_trimStart text
  obtain ⟨behind, blankBehind, rest⟩ := exists_eq_trimEnd_append (trimStart text)
  exact ⟨before, behind, blankBefore, blankBehind, by rw [trim, ← rest, ← whole]⟩

/-- **Trimming leaves what stands between the blanks at both ends.** -/
theorem trim_eq_iff {text core : List Char} :
    trim text = core ↔ Trimmed core ∧ ∃ before behind, AllBlank before ∧ AllBlank behind ∧
      text = before ++ (core ++ behind) := by
  constructor
  · rintro rfl
    exact ⟨trimmed_trim text, exists_eq_trim_between_blanks text⟩
  · rintro ⟨trimmed, before, behind, blankBefore, blankBehind, rfl⟩
    cases core with
    | nil =>
        have blank : AllBlank (before ++ behind) := blankBefore.append blankBehind
        have none : trimStart (before ++ behind) = [] := List.dropWhile_eq_nil_iff.mpr blank
        rw [List.nil_append, trim, none]
        rfl
    | cons character rest =>
        have kept : trimStart (before ++ (character :: rest ++ behind)) =
            character :: rest ++ behind := trimStart_append blankBefore trimmed.start
        rw [trim, kept, trimEnd_append blankBehind trimmed.final]

/-- A text without blanks at its ends is left as it is. -/
theorem Trimmed.trim_eq {text : List Char} (trimmed : Trimmed text) : trim text = text :=
  trim_eq_iff.mpr ⟨trimmed, [], [], allBlank_nil, allBlank_nil, by rw [List.append_nil]; rfl⟩

end DownloadCache.Text
