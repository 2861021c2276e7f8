import HeaderBook.FragmentTable

/-!
# Shielded ampersands

Markers begin with an ampersand, so the ampersands of a source are put out of
the way before any marker is written: each becomes the marker of the reserved
entry 0. An ampersand that already opens a generic marker is left alone.
-/

namespace HeaderBook.Source

open Text (isDigit)

/-- `opensGeneric rest` holds when an ampersand before `rest` would open a
generic marker: one or more digits and a full stop follow. -/
def opensGeneric (rest : Text) : Bool :=
  match rest.takeWhile isDigit, rest.dropWhile isDigit with
  | _ :: _, '.' :: _ => true
  | _, _ => false

/-- Replaces every ampersand that opens no generic marker by the marker of the
reserved entry. -/
def shieldAmpersands : Text → Text
  | [] => []
  | c :: rest =>
    if c = '&' && !opensGeneric rest then
      MarkerKind.generic.format FragmentTable.ampersandIndex ++ shieldAmpersands rest
    else
      c :: shieldAmpersands rest

end HeaderBook.Source
