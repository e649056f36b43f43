/-!
# Blank space around a text

The characters of the property White_Space, and the removal of such characters
from both ends of a text.
-/

namespace StagedQuery.Text

/-- Whether a character has the property White_Space. -/
def isBlank (char : Char) : Bool :=
  let code := char.toNat
  (0x9 ≤ code && code ≤ 0xd) || code == 0x20 || code == 0x85 || code == 0xa0 || code == 0x1680
    || (0x2000 ≤ code && code ≤ 0x200a) || code == 0x2028 || code == 0x2029 || code == 0x202f
    || code == 0x205f || code == 0x3000

/-- The characters of a text without the blank ones at either end. -/
def stripBlank (chars : List Char) : List Char :=
  ((chars.dropWhile isBlank).reverse.dropWhile isBlank).reverse

end StagedQuery.Text
