import HeaderBook.CodePoint
import HeaderBook.Yaml.Cursor

/-!
# Quoted scalars

Between apostrophes, two apostrophes stand for one. Between double quotes a
backslash introduces an escape, which may spell a surrogate. In both, a line break
folds to a space, several to one fewer, and blanks around them vanish.
-/

namespace HeaderBook.Yaml

/-- What the character after a backslash stands for. -/
def escaped? : Char → Option Char
  | '0' => some '\x00'
  | 'a' => some '\x07'
  | 'b' => some '\x08'
  | 't' | '\t' => some '\t'
  | 'n' => some '\n'
  | 'v' => some '\x0B'
  | 'f' => some '\x0C'
  | 'r' => some '\r'
  | 'e' => some '\x1B'
  | ' ' => some ' '
  | '"' => some '"'
  | '\\' => some '\\'
  | '/' => some '/'
  | 'N' => some '\u0085'
  | '_' => some '\u00a0'
  | 'L' => some '\u2028'
  | 'P' => some '\u2029'
  | _ => none

/-- The number of hexadecimal digits after the character that announces them. -/
def escapeDigits? : Char → Option Nat
  | 'x' => some 2
  | 'u' => some 4
  | 'U' => some 8
  | _ => none

/-- The value of a hexadecimal digit. -/
def hexDigit? (c : Char) : Option Nat :=
  if '0' ≤ c ∧ c ≤ '9' then some (c.toNat - '0'.toNat)
  else if 'a' ≤ c ∧ c ≤ 'f' then some (c.toNat - 'a'.toNat + 10)
  else if 'A' ≤ c ∧ c ≤ 'F' then some (c.toNat - 'A'.toNat + 10)
  else none

/-- The code point that `digits` hexadecimal digits give. -/
def escapedCode (digits : Nat) (text : Text) : Except Failure CodePoint :=
  match (text.take digits).mapM hexDigit? with
  | none => malformed "expected escape sequence of hexadecimal numbers"
  | some values =>
    if values.length < digits then malformed "expected escape sequence of hexadecimal numbers"
    else
      let code := values.foldl (fun code value => 16 * code + value) 0
      if code < 0x110000 then .ok (.ofNat code)
      else if code < 0x80000000 then .error .codePoint
      else .error .codeSize

/-- A scalar that was read, and the number of characters it took. -/
structure Reading where
  text : CodeText
  count : Nat

/-- Puts a text in front of a reading. -/
def Reading.cons (front : CodeText) (count : Nat) (rest : Reading) : Reading :=
  ⟨front ++ rest.text, count + rest.count⟩

/-- Blanks inside a quoted scalar. -/
def isSpaceOrTab (c : Char) : Bool :=
  c = ' ' || c = '\t'

/-- Reads a quoted scalar from after its opening quote through its closing
quote. No more than `fuel` steps are taken, each of which moves on by at least one
character. -/
def quotedFrom (double : Bool) (fuel : Nat) (text : Text) : Except Failure Reading :=
  match fuel with
  | 0 => malformed "found unexpected end of stream"
  | fuel + 1 =>
    match text with
    | [] => malformed "found unexpected end of stream"
    | c :: rest =>
      let more (shown : CodeText) (count : Nat) : Except Failure Reading := do
        return (← quotedFrom double fuel (text.drop count)).cons shown count
      let ordinary (shown : Text) (count : Nat) : Except Failure Reading :=
        more (CodeText.ofText shown) count
      if c = '"' && double then .ok ⟨[], 1⟩
      else if c = '\'' && !double then
        if rest.head? = some '\'' then more ['\''] 2 else .ok ⟨[], 1⟩
      else if c = '\\' && double then
        match rest with
        | [] => malformed "found unknown escape character"
        | marked :: after =>
          match escaped? marked, escapeDigits? marked with
          | some shown, _ => more [shown] 2
          | none, some digits => do
            let shown ← escapedCode digits after
            more [shown] (2 + digits)
          | none, none =>
            match lineBreak? rest with
            | none => malformed "found unknown escape character"
            | some (_, length) =>
              let inner := rest.drop length
              if separatorAhead inner then malformed "found unexpected document separator"
              else
                let breaks := Breaks.ahead isSpaceOrTab inner
                if breaks.separated then malformed "found unexpected document separator"
                else ordinary breaks.breaks (1 + length + breaks.count)
      else if isSpaceOrTab c || isBreak c then
        let blanks := text.takeWhile isSpaceOrTab
        match lineBreak? (text.drop blanks.length) with
        | none => ordinary blanks blanks.length
        | some (first, length) =>
          let inner := text.drop (blanks.length + length)
          if separatorAhead inner then malformed "found unexpected document separator"
          else
            let breaks := Breaks.ahead isSpaceOrTab inner
            if breaks.separated then malformed "found unexpected document separator"
            else ordinary (folded first breaks.breaks) (blanks.length + length + breaks.count)
      else more [c] 1

/-- Reads the quoted scalar whose opening quote stands before `text`. The text has
at most `size` characters. -/
def quoted (double : Bool) (size : Nat) (text : Text) : Except Failure Reading :=
  quotedFrom double (size + 1) text

end HeaderBook.Yaml
