import HeaderBook.Yaml.Cursor

/-!
# Plain scalars

A scalar without quotes ends at a gap, at a colon with a gap after it, before a
comment, and, inside brackets, at their punctuation. It goes on after blanks, and
in a following line that is indented deeply enough.
-/

namespace HeaderBook.Yaml

/-- `endsPlain inFlow c next` holds when a plain scalar ends before `c`, which
is followed by `next`; `inFlow` tells that brackets are open. -/
def endsPlain (inFlow : Bool) (c : Char) (next : Option Char) : Bool :=
  isGap (some c) ||
    (c = ':' && (isGap next || (inFlow && next.any [',', '[', ']', '\x7b', '\x7d'].contains))) ||
    (inFlow && [',', '?', '[', ']', '\x7b', '\x7d'].contains c)

/-- The number of characters at the beginning of a text before which a plain
scalar does not end. -/
def plainLength (inFlow : Bool) : Text → Nat
  | [] => 0
  | c :: rest => if endsPlain inFlow c rest.head? then 0 else plainLength inFlow rest + 1

/-- The blanks and line breaks between two stretches of a plain scalar. -/
structure PlainGap where
  /-- What the gap counts as; nothing if the scalar ends before it. -/
  text : Text
  /-- The number of characters in the gap. -/
  count : Nat
  /-- The gap breaks a line. -/
  breaking : Bool

/-- The gap at the beginning of a text. -/
def PlainGap.ahead (text : Text) : PlainGap :=
  let blanks := text.takeWhile (· = ' ')
  match lineBreak? (text.drop blanks.length) with
  | none => ⟨blanks, blanks.length, false⟩
  | some (first, length) =>
    let inner := text.drop (blanks.length + length)
    if separatorAhead inner then ⟨[], blanks.length + length, true⟩
    else
      let more := Breaks.ahead (· = ' ') inner
      let shown := if more.separated then [] else folded first more.breaks
      ⟨shown, blanks.length + length + more.count, true⟩

/-- A plain scalar that was read. -/
structure PlainReading where
  text : Text
  cursor : Cursor
  /-- The gap after the scalar breaks a line, so that a key may follow. -/
  breaking : Bool

/-- Reads a plain scalar. `between` is what the gap before this stretch counts
as, and `breaking` whether it breaks a line; outside brackets the scalar goes on
only in columns from `indent` on. No more than `fuel` stretches are read. -/
def plainFrom (inFlow : Bool) (indent : Int) (fuel : Nat) (between : Text) (breaking : Bool)
    (cursor : Cursor) : PlainReading :=
  let stop : PlainReading := ⟨[], cursor, breaking⟩
  match fuel with
  | 0 => stop
  | fuel + 1 =>
    if cursor.peek 0 = some '#' then stop
    else
      let length := plainLength inFlow cursor.rest
      if length = 0 then stop
      else
        let stretch := cursor.rest.take length
        let after := cursor.advance length
        let gap := PlainGap.ahead after.rest
        let next := after.advance gap.count
        let ends := gap.text.isEmpty || next.peek 0 = some '#' ||
          (!inFlow && (next.column : Int) < indent)
        let more : PlainReading :=
          if ends then ⟨[], next, gap.breaking⟩
          else plainFrom inFlow indent fuel gap.text gap.breaking next
        { more with text := between ++ stretch ++ more.text }

/-- Reads the plain scalar at a cursor, after which there are at most `size`
characters. -/
def plain (inFlow : Bool) (indent : Int) (size : Nat) (cursor : Cursor) : PlainReading :=
  plainFrom inFlow indent size [] false cursor

end HeaderBook.Yaml
