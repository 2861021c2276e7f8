import HeaderBook.Yaml.Failure

/-!
# Cursors

A cursor stands before a character of a YAML text and knows its position: how
many characters and lines precede it, and how many columns precede it in its
line. Besides the line feed and the carriage return, the next-line character and
the two Unicode separators break lines.
-/

namespace HeaderBook.Yaml

/-- The characters that break a line. -/
def isBreak (c : Char) : Bool :=
  c = '\r' || c = '\n' || c = '\u0085' || c = '\u2028' || c = '\u2029'

/-- The end of the text, a space, a tab or a line break. -/
def isGap : Option Char → Bool
  | none => true
  | some c => c = ' ' || c = '\t' || isBreak c

/-- The characters that a YAML text may hold. -/
def isAllowed (c : Char) : Bool :=
  c = '\t' || c = '\n' || c = '\r' || c = '\u0085' ||
    (0x20 ≤ c.toNat && c.toNat ≤ 0x7E) || (0xA0 ≤ c.toNat && c.toNat ≤ 0xFFFD) ||
    0x10000 ≤ c.toNat

/-- A document separator stands at the beginning of `text`: three hyphens or
three full stops with a gap after them. -/
def separatorAhead (text : Text) : Bool :=
  (['-', '-', '-'].isPrefixOf text || ['.', '.', '.'].isPrefixOf text) && isGap text[3]?

/-- A position in a text. -/
structure Cursor where
  /-- What follows the cursor. -/
  rest : Text
  index : Nat := 0
  line : Nat := 0
  column : Nat := 0
  deriving DecidableEq, Repr

namespace Cursor

/-- Moves past one character. -/
def step (cursor : Cursor) : Cursor :=
  match cursor.rest with
  | [] => cursor
  | c :: rest =>
    if isBreak c && !(c = '\r' && rest.head? = some '\n') then
      { rest, index := cursor.index + 1, line := cursor.line + 1, column := 0 }
    else if c = '\ufeff' then
      { cursor with rest, index := cursor.index + 1 }
    else
      { cursor with rest, index := cursor.index + 1, column := cursor.column + 1 }

/-- Moves past `count` characters. -/
def advance (cursor : Cursor) : Nat → Cursor
  | 0 => cursor
  | count + 1 => cursor.step.advance count

/-- The character `offset` places after the cursor. -/
def peek (cursor : Cursor) (offset : Nat) : Option Char :=
  cursor.rest[offset]?

end Cursor

/-- The line break at the beginning of a text: what it counts as, and its length. -/
def lineBreak? : Text → Option (Char × Nat)
  | '\r' :: '\n' :: _ => some ('\n', 2)
  | c :: _ =>
    if c = '\r' || c = '\n' || c = '\u0085' then some ('\n', 1)
    else if c = '\u2028' || c = '\u2029' then some (c, 1)
    else none
  | [] => none

/-- The line breaks at the beginning of a text that lies inside a scalar. -/
structure Breaks where
  /-- The breaks as they count. -/
  breaks : Text := []
  /-- The number of characters up to the next that is neither break nor indentation. -/
  count : Nat := 0
  /-- A document separator stands at the beginning of one of the lines. -/
  separated : Bool := false

/-- Puts a break, and the `length` characters it takes, in front. -/
def Breaks.cons (counted : Char) (length : Nat) (rest : Breaks) : Breaks :=
  { rest with breaks := counted :: rest.breaks, count := length + rest.count }

/-- The line breaks at the beginning of `text`, with the indentation between
them. Characters of indentation satisfy `indents`; a separator ends the search. -/
def Breaks.ahead (indents : Char → Bool) (text : Text) : Breaks :=
  match text with
  | [] => {}
  | '\r' :: '\n' :: rest =>
    if separatorAhead rest then { breaks := ['\n'], count := 2, separated := true }
    else (Breaks.ahead indents rest).cons '\n' 2
  | c :: rest =>
    if indents c then
      let more := Breaks.ahead indents rest
      { more with count := more.count + 1 }
    else if isBreak c then
      let counted := if c = '\u2028' || c = '\u2029' then c else '\n'
      if separatorAhead rest then { breaks := [counted], count := 1, separated := true }
      else (Breaks.ahead indents rest).cons counted 1
    else {}

/-- What a line break inside a scalar folds to: a single plain break becomes a
space, otherwise the break is dropped in favour of the breaks after it. -/
def folded (first : Char) (breaks : Text) : Text :=
  (if first ≠ '\n' then [first] else if breaks.isEmpty then [' '] else []) ++ breaks

end HeaderBook.Yaml
