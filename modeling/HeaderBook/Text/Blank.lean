import HeaderBook.Text.CodeRange

/-!
# Blank characters

White space in the sense of Unicode: the ASCII blanks, the four information
separators, and the space separators. The zero-width space and the byte order
mark are not blank.
-/

namespace HeaderBook.Text

/-- The twenty-nine blank code points. -/
def blankRanges : List CodeRange :=
  [(0x9, 0xD), (0x1C, 0x20), (0x85, 0x85), (0xA0, 0xA0), (0x1680, 0x1680), (0x2000, 0x200A),
   (0x2028, 0x2029), (0x202F, 0x202F), (0x205F, 0x205F), (0x3000, 0x3000)]

/-- `isBlank c` holds exactly when `c` lies in one of `blankRanges`. -/
def isBlank (c : Char) : Bool :=
  CodeRange.covers blankRanges c.toNat

end HeaderBook.Text
