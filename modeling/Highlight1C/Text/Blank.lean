import Highlight1C.Text.Ranges

/-!
# Blank characters

The characters that leave nothing but room between others, as Unicode counts them.
-/

namespace Highlight1C.Text

/-- The code points of blank characters. -/
def blankRanges : Ranges :=
  [(0x9, 0xd), (0x20, 0x20), (0x85, 0x85), (0xa0, 0xa0), (0x1680, 0x1680), (0x2000, 0x200a),
   (0x2028, 0x2029), (0x202f, 0x202f), (0x205f, 0x205f), (0x3000, 0x3000)]

/-- Whether a character is blank. -/
def isBlank (c : Char) : Bool :=
  blankRanges.contains c.toNat

end Highlight1C.Text
