/-!
# Blank characters

The characters that carry the Unicode property `White_Space`, and the trimming of text on
both sides.  Command lines, byte sizes and switches are all read after trimming, so this one
set decides what an empty line is and which characters may stand around a number.

The set is larger than the ASCII one: it holds the no-break space and the spaces of General
Punctuation.  It holds neither the zero width space nor the byte order mark.
-/

namespace DownloadCache.Text

set_option autoImplicit false

/-! ## The property -/

/-- Whether a character carries the property `White_Space`. -/
def isBlank (character : Char) : Bool :=
  let code := character.toNat
  (0x9 ≤ code && code ≤ 0xd) || code == 0x20 || code == 0x85 || code == 0xa0 ||
    code == 0x1680 || (0x2000 ≤ code && code ≤ 0x200a) || code == 0x2028 || code == 0x2029 ||
    code == 0x202f || code == 0x205f || code == 0x3000

/-! ## Trimming -/

/-- The text without the blanks at its start. -/
def trimStart (text : List Char) : List Char :=
  text.dropWhile isBlank

/-- The text without the blanks at its end. -/
def trimEnd (text : List Char) : List Char :=
  (text.reverse.dropWhile isBlank).reverse

/-- The text without the blanks at its start and at its end. -/
def trim (text : List Char) : List Char :=
  trimEnd (trimStart text)

/-- The text of a string without the blanks at its start and at its end. -/
def trimmed (text : String) : String :=
  String.ofList (trim text.toList)

end DownloadCache.Text
