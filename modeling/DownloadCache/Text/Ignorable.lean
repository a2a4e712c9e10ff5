import DownloadCache.Text.Ranges

/-!
# Characters that may be ignored

The characters that carry the property `Default_Ignorable_Code_Point`: a program that has no
drawing for one of them draws nothing.  A quoted text shows them by their code, so that no part
of it is out of sight.

Most of them are format characters or marks.  Four are letters: the fillers of Hangul, which hold
the place of a letter and have no shape.
-/

namespace DownloadCache.Text

set_option autoImplicit false

/-- The ranges of the set, 17 of them. -/
def ignorable : Ranges := [
  (0xad, 0xad), (0x34f, 0x34f), (0x61c, 0x61c), (0x115f, 0x1160), (0x17b4, 0x17b5),
  (0x180b, 0x180f), (0x200b, 0x200f), (0x202a, 0x202e), (0x2060, 0x206f), (0x3164, 0x3164),
  (0xfe00, 0xfe0f), (0xfeff, 0xfeff), (0xffa0, 0xffa0), (0xfff0, 0xfff8), (0x1bca0, 0x1bca3),
  (0x1d173, 0x1d17a), (0xe0000, 0xe0fff)]

end DownloadCache.Text
