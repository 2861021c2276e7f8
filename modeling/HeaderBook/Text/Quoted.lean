import HeaderBook.CodePoint
import HeaderBook.Text.Printable

/-!
# Quoted texts

A text shown inside a message stands between quotes. Apostrophes are the
default quote; double quotes are used when the text holds an apostrophe and no
double quote. Backslashes, the quote, unprintable characters and surrogates are
escaped, so that what is shown is a text of characters.
-/

namespace HeaderBook.Text

/-- The lower-case hexadecimal form of `n` in exactly `width` digits. -/
def hexadecimal (width n : Nat) : Text :=
  match width with
  | 0 => []
  | width + 1 => hexadecimal width (n / 16) ++ [Nat.digitChar (n % 16)]

/-- A code point by its number: two, four or eight hexadecimal digits. -/
def escapeCode (code : CodePoint) : Text :=
  let number := code.toNat
  if number < 0x100 then ['\\', 'x'] ++ hexadecimal 2 number
  else if number < 0x10000 then ['\\', 'u'] ++ hexadecimal 4 number
  else ['\\', 'U'] ++ hexadecimal 8 number

/-- The quote that surrounds `text`. -/
def quoteFor (text : CodeText) : Char :=
  if text.contains '\'' && !text.contains '"' then '"' else '\''

/-- How one code point stands between two `quote` characters. -/
def quotedCode (quote : Char) : CodePoint → Text
  | .surrogate offset => escapeCode (.surrogate offset)
  | .char c =>
    if c = '\\' || c = quote then ['\\', c]
    else if c = '\n' then ['\\', 'n']
    else if c = '\r' then ['\\', 'r']
    else if c = '\t' then ['\\', 't']
    else if isPrintable c then [c]
    else escapeCode c

/-- `quoted text` is `text` between quotes, all of it on one line. -/
def quoted (text : CodeText) : Text :=
  let quote := quoteFor text
  quote :: (text.flatMap (quotedCode quote) ++ [quote])

end HeaderBook.Text
