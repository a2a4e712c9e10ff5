/-!
# Sets of characters as ranges

A property of characters is given as the list of the ranges of code points that carry it.
-/

namespace DownloadCache.Text

set_option autoImplicit false

/-- The first and the last code point of each range. -/
abbrev Ranges := List (Nat × Nat)

/-- Whether a character lies in one of the ranges. -/
def Ranges.contains (ranges : Ranges) (character : Char) : Bool :=
  ranges.any fun range => range.1 ≤ character.toNat && character.toNat ≤ range.2

end DownloadCache.Text
