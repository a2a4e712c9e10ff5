import DownloadCache.Text.ExtendingMark
import DownloadCache.Text.Ignorable
import DownloadCache.Text.Unprintable

/-!
# Quoted text

Text between double quotes, as error texts show paths and values.  The quote and the backslash
are escaped by a backslash, the four common controls by a letter, and every other character that
is not printed, that may be drawn as nothing, or that would be drawn on the one before it, by its
code in hexadecimal digits.  All other characters stand for themselves, the apostrophe among them.
-/

namespace DownloadCache.Text

set_option autoImplicit false

/-! ## Single characters -/

/-- Whether a character is shown by its code. -/
def isHidden (character : Char) : Bool :=
  if character.toNat < 0x7f then character.toNat < 0x20
  else
    extendingMarks.contains character || ignorable.contains character ||
      unprintable.contains character

/-- The written form of a character by its code. -/
def codeEscape (character : Char) : List Char :=
  '\\' :: 'u' :: '\x7b' :: (Nat.toDigits 16 character.toNat ++ ['\x7d'])

/-- The written form of a character within quotes. -/
def quotedChar (character : Char) : List Char :=
  match character with
  | '\x00' => ['\\', '0']
  | '\t' => ['\\', 't']
  | '\n' => ['\\', 'n']
  | '\r' => ['\\', 'r']
  | '"' => ['\\', '"']
  | '\\' => ['\\', '\\']
  | other => if isHidden other then codeEscape other else [other]

/-! ## Texts -/

/-- The text between double quotes. -/
def quoted (text : String) : String :=
  String.ofList ('"' :: (text.toList.flatMap quotedChar ++ ['"']))

end DownloadCache.Text
