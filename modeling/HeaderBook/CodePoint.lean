import HeaderBook.Text

/-!
# Code points

A code point is a character or a surrogate. Surrogates stand in pairs for
characters in UTF-16 and for nothing elsewhere, so no file that is read holds one;
but an escape can spell one, and names of files use some of them for bytes that are
no characters. Texts that may hold surrogates are lists of code points. They are
compared code point by code point.
-/

namespace HeaderBook

/-- A character or a surrogate. -/
inductive CodePoint where
  | char (c : Char)
  /-- A surrogate, by its distance from the first one. -/
  | surrogate (offset : Fin 0x800)
  deriving DecidableEq, Repr

namespace CodePoint

instance : Coe Char CodePoint := ⟨char⟩

/-- The number of a code point. -/
def toNat : CodePoint → Nat
  | .char c => c.toNat
  | .surrogate offset => 0xD800 + offset.val

/-- The code point with a number below `0x110000`. -/
def ofNat (number : Nat) : CodePoint :=
  if _surrogate : 0xD800 ≤ number ∧ number < 0xE000 then
    .surrogate ⟨number - 0xD800, by omega⟩
  else
    .char (Char.ofNat number)

/-- Code points are told apart by their numbers. -/
theorem toNat_injective {left right : CodePoint} (same : left.toNat = right.toNat) :
    left = right := by
  have outside (c : Char) (offset : Fin 0x800) : c.toNat ≠ 0xD800 + offset.val := by
    have valid : c.toNat < 0xD800 ∨ 0xDFFF < c.toNat ∧ c.toNat < 0x110000 := c.valid
    omega
  cases left with
  | char c =>
    cases right with
    | char d => exact congrArg char (Char.ext (UInt32.toNat_inj.mp same))
    | surrogate offset => exact absurd same (outside c offset)
  | surrogate offset =>
    cases right with
    | char d => exact absurd same.symm (outside d offset)
    | surrogate other =>
      have equal : offset = other := Fin.ext (Nat.add_left_cancel same)
      rw [equal]

instance : LE CodePoint := ⟨fun left right => left.toNat ≤ right.toNat⟩

instance (left right : CodePoint) : Decidable (left ≤ right) :=
  inferInstanceAs (Decidable (left.toNat ≤ right.toNat))

/-- Surrogates are the code points that are no characters. -/
def isSurrogate : CodePoint → Bool
  | .char _ => false
  | .surrogate _ => true

/-- The character that a code point is. -/
def char? : CodePoint → Option Char
  | .char c => some c
  | .surrogate _ => none

end CodePoint

/-- A text that may hold surrogates. -/
abbrev CodeText := List CodePoint

namespace CodeText

/-- A text of characters. -/
def ofText (text : Text) : CodeText :=
  text.map .char

/-- A text with the characters that its surrogates stand for in pairs: one of the
first half and one of the second half after it. Any other surrogate stays. -/
def joined : CodeText → CodeText
  | .surrogate high :: .surrogate low :: rest =>
    if high.val < 0x400 ∧ 0x400 ≤ low.val then
      .ofNat (0x10000 + high.val * 0x400 + (low.val - 0x400)) :: joined rest
    else
      .surrogate high :: joined (.surrogate low :: rest)
  | code :: rest => code :: joined rest
  | [] => []

/-- The characters that a text shows. A surrogate outside a pair shows the
replacement character. -/
def shown (text : CodeText) : Text :=
  (joined text).map fun code => code.char?.getD '\ufffd'

/-- `occursIn part whole` holds when `part` stands somewhere in `whole`. -/
def occursIn (part : CodeText) : CodeText → Bool
  | [] => part.isEmpty
  | c :: rest => part.isPrefixOf (c :: rest) || occursIn part rest

/-- Order by code point, a proper beginning before its continuations. -/
def le : CodeText → CodeText → Bool
  | [], _ => true
  | _ :: _, [] => false
  | c :: rest, d :: rest' => c.toNat < d.toNat || (c = d && le rest rest')

/-- Puts a text among texts in code-point order, before the first that it does not
follow. -/
def insert (text : CodeText) : List CodeText → List CodeText
  | [] => [text]
  | other :: rest => if le text other then text :: other :: rest else other :: insert text rest

/-- `sort texts` lists `texts` in code-point order. -/
def sort (texts : List CodeText) : List CodeText :=
  texts.foldr insert []

end CodeText

/-- The text of a string. -/
def codes (text : String) : CodeText :=
  CodeText.ofText text.toList

end HeaderBook
