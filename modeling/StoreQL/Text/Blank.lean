/-
# Blanks

The `White_Space` property of Unicode: twenty-five characters, among them the no-break space, the
line and paragraph separators and the ideographic space. The zero-width space is not one.
-/
import StoreQL.Text.Ranges

namespace StoreQL.Text

/-- The ranges of `White_Space`. -/
def blankRanges : Ranges := [
  (9, 0xD), (0x20, 0x20), (0x85, 0x85), (0xA0, 0xA0), (0x1680, 0x1680), (0x2000, 0x200A),
  (0x2028, 0x2029), (0x202F, 0x202F), (0x205F, 0x205F), (0x3000, 0x3000)]

/-- Whether `c` is `White_Space`. -/
def isBlank (c : Char) : Bool := blankRanges.covers c.toNat

end StoreQL.Text
