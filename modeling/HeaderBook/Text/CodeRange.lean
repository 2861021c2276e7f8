/-!
# Sets of code points

A character class is a list of closed ranges of code points in ascending order.
Membership stops at the first range that begins beyond the code point asked for,
so a test near the beginning of the list is cheap.
-/

namespace HeaderBook.Text

/-- A closed range: its first and its last code point. -/
abbrev CodeRange := Nat × Nat

/-- `covers ranges code` holds when `code` lies in a range of the ascending
list `ranges`. -/
def CodeRange.covers : List CodeRange → Nat → Bool
  | [], _ => false
  | (first, last) :: rest, code =>
    first ≤ code && (code ≤ last || CodeRange.covers rest code)

end HeaderBook.Text
