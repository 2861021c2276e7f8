import HeaderBook.Yaml.Plain
import HeaderBook.Yaml.Quoted

/-!
# Tokens

A YAML text is cut into tokens. Indentation becomes explicit: the columns of
open block collections form a stack, and moving left of a column closes its
collection.

Whether a scalar or a bracket begins a key is known only when a colon follows in
the same line. Places where a key could begin are therefore remembered, one for
each depth of brackets, and the tokens that announce the key are put in front of
it when the colon is met. If cutting fails, the failure stands as the last token,
after the tokens that were settled by then.
-/

namespace HeaderBook.Yaml

/-- A token. -/
inductive Token where
  | documentStart
  | documentEnd
  | blockSequenceStart
  | blockMappingStart
  | blockEnd
  | flowSequenceStart
  | flowSequenceEnd
  | flowMappingStart
  | flowMappingEnd
  | blockEntry
  | flowEntry
  | key
  | value
  | plain (text : Text)
  | quoted (text : CodeText)
  /-- The text cannot be cut any further. -/
  | broken (failure : Failure)
  deriving DecidableEq, Repr

/-- A place where a key may begin. -/
structure KeyPlace where
  /-- The number of brackets open there. -/
  depth : Nat
  /-- The number of tokens before it. -/
  position : Nat
  /-- A key has to begin there. -/
  required : Bool
  index : Nat
  line : Nat
  column : Nat
  deriving DecidableEq, Repr

/-- The state of cutting a text into tokens. -/
structure Tokenizer where
  /-- The length of the text, which bounds the steps of every search in it. -/
  size : Nat
  cursor : Cursor
  /-- The tokens so far, the latest first. -/
  emitted : List Token := []
  /-- The number of tokens so far. -/
  count : Nat := 0
  /-- The column of the innermost open block collection; -1 if there is none. -/
  indent : Int := -1
  /-- The columns outside it, innermost first. -/
  outer : List Int := []
  /-- The number of open brackets. -/
  depth : Nat := 0
  places : List KeyPlace := []
  /-- A key may begin at the cursor. -/
  keyAllowed : Bool := true

namespace Tokenizer

/-- Adds a token. -/
def emit (state : Tokenizer) (token : Token) : Tokenizer :=
  { state with emitted := token :: state.emitted, count := state.count + 1 }

/-- Puts a token in front of all but `position` tokens. -/
def insert (state : Tokenizer) (position : Nat) (token : Token) : Tokenizer :=
  { state with
    emitted := state.emitted.insertIdx (state.count - position) token
    count := state.count + 1 }

/-- Moves the cursor on. -/
def skip (state : Tokenizer) (count : Nat) : Tokenizer :=
  { state with cursor := state.cursor.advance count }

/-- Brackets are open. -/
def inFlow (state : Tokenizer) : Bool :=
  state.depth ≠ 0

/-- The longest distance between the beginning of a key and its colon. -/
def keyReach : Nat := 1024

/-- The cursor has left a place behind. -/
def isStale (state : Tokenizer) (place : KeyPlace) : Bool :=
  place.line ≠ state.cursor.line || keyReach < state.cursor.index - place.index

/-- Forgets the places that the cursor has left behind. -/
def dropStale (state : Tokenizer) : Except Failure Tokenizer :=
  if state.places.any fun place => state.isStale place && place.required then
    malformed "could not find expected colon"
  else
    .ok { state with places := state.places.filter fun place => !state.isStale place }

/-- The number of tokens that no colon can change any more: those before every
place where a key may begin. -/
def settledCount (state : Tokenizer) : Nat :=
  (state.places.filter fun place => !state.isStale place).foldl
    (fun count place => min count place.position) state.count

/-- The tokens that no colon can change any more. -/
def settled (state : Tokenizer) : List Token :=
  (state.emitted.drop (state.count - state.settledCount)).reverse

/-- Forgets the place at the current depth. -/
def dropPlace (state : Tokenizer) : Except Failure Tokenizer :=
  if state.places.any fun place => place.depth = state.depth && place.required then
    malformed "could not find expected colon"
  else
    .ok { state with places := state.places.filter fun place => place.depth ≠ state.depth }

/-- Remembers that a key may begin at the cursor. -/
def savePlace (state : Tokenizer) : Except Failure Tokenizer := do
  if state.keyAllowed then
    let state ← state.dropPlace
    let place : KeyPlace := {
      depth := state.depth
      position := state.count
      required := !state.inFlow && state.indent = state.cursor.column
      index := state.cursor.index
      line := state.cursor.line
      column := state.cursor.column }
    return { state with places := place :: state.places }
  else
    return state

/-- Closes the block collections to the right of a column: the innermost column
that stays open, the columns outside it, and the number of collections closed. -/
def closed (column indent : Int) : List Int → Int × List Int × Nat
  | [] => (indent, [], 0)
  | around :: outer =>
    if column < indent then
      let (indent, outer, count) := closed column around outer
      (indent, outer, count + 1)
    else (indent, around :: outer, 0)

/-- Closes the block collections to the right of a column. Inside brackets
indentation does not count. -/
def unwind (state : Tokenizer) (column : Int) : Tokenizer :=
  if state.inFlow then state
  else
    let (indent, outer, count) := closed column state.indent state.outer
    (List.range count).foldl (fun state _ => state.emit .blockEnd) { state with indent, outer }

/-- Opens a block collection at a column to the right of the innermost, putting
its token at `position` among the tokens. -/
def openBlock (state : Tokenizer) (column : Nat) (position : Nat) (token : Token) : Tokenizer :=
  if state.indent < column then
    { state with outer := state.indent :: state.outer, indent := column }.insert position token
  else state

/-- The number of characters in the spaces, comments and line breaks at the
beginning of a text, and whether there is a break among them. `inComment` tells
that the text goes on in a comment. -/
def gapAhead (inComment : Bool) : Text → Nat × Bool
  | [] => (0, false)
  | c :: rest =>
    if isBreak c then ((gapAhead false rest).1 + 1, true)
    else if inComment || c = ' ' || c = '#' then
      let (count, breaking) := gapAhead (inComment || c = '#') rest
      (count + 1, breaking)
    else (0, false)

/-- Skips spaces, comments and line breaks. After a line break outside brackets a
key may begin. -/
def skipGap (state : Tokenizer) : Tokenizer :=
  let (count, breaking) := gapAhead false state.cursor.rest
  let state := state.skip count
  if breaking && !state.inFlow then { state with keyAllowed := true } else state

/-- A token of one character that opens a bracket. -/
def openBracket (state : Tokenizer) (token : Token) : Except Failure Tokenizer := do
  let state ← state.savePlace
  return ({ state with depth := state.depth + 1, keyAllowed := true }.skip 1).emit token

/-- A token of one character that closes a bracket. -/
def closeBracket (state : Tokenizer) (token : Token) : Except Failure Tokenizer := do
  let state ← state.dropPlace
  if state.depth = 0 then malformed "found a closing bracket that nothing opened"
  else return ({ state with depth := state.depth - 1, keyAllowed := false }.skip 1).emit token

/-- A document separator. -/
def separator (state : Tokenizer) (token : Token) : Except Failure Tokenizer := do
  let state ← (state.unwind (-1)).dropPlace
  return ({ state with keyAllowed := false }.skip 3).emit token

/-- The comma between two entries in brackets. -/
def flowEntry (state : Tokenizer) : Except Failure Tokenizer := do
  let state ← { state with keyAllowed := true }.dropPlace
  return (state.skip 1).emit .flowEntry

/-- The hyphen before an entry of a block sequence. -/
def blockEntry (state : Tokenizer) : Except Failure Tokenizer := do
  if !state.inFlow && !state.keyAllowed then malformed "sequence entries are not allowed here"
  else
    let state :=
      if state.inFlow then state
      else state.openBlock state.cursor.column state.count .blockSequenceStart
    let state ← { state with keyAllowed := true }.dropPlace
    return (state.skip 1).emit .blockEntry

/-- The question mark before a key. -/
def explicitKey (state : Tokenizer) : Except Failure Tokenizer := do
  if !state.inFlow && !state.keyAllowed then malformed "mapping keys are not allowed here"
  else
    let state :=
      if state.inFlow then state
      else state.openBlock state.cursor.column state.count .blockMappingStart
    let state ← { state with keyAllowed := !state.inFlow }.dropPlace
    return (state.skip 1).emit .key

/-- The colon after a key. -/
def colon (state : Tokenizer) : Except Failure Tokenizer := do
  match state.places.find? (·.depth = state.depth) with
  | some place =>
    let state := { state with
      places := state.places.filter (·.depth ≠ state.depth)
      keyAllowed := false }.insert place.position .key
    let state :=
      if state.inFlow then state else state.openBlock place.column place.position .blockMappingStart
    return (state.skip 1).emit .value
  | none =>
    if !state.inFlow && !state.keyAllowed then malformed "mapping values are not allowed here"
    else
      let state :=
        if state.inFlow then state
        else state.openBlock state.cursor.column state.count .blockMappingStart
      let state ← { state with keyAllowed := !state.inFlow }.dropPlace
      return (state.skip 1).emit .value

/-- A quoted scalar. -/
def quotedScalar (state : Tokenizer) (double : Bool) : Except Failure Tokenizer := do
  let state ← state.savePlace
  let reading ← Yaml.quoted double state.size (state.cursor.rest.drop 1)
  return ({ state with keyAllowed := false }.skip (1 + reading.count)).emit
    (.quoted reading.text)

/-- A plain scalar. A line break after it allows a key again. -/
def plainScalar (state : Tokenizer) : Except Failure Tokenizer := do
  let state ← state.savePlace
  let reading := Yaml.plain state.inFlow (state.indent + 1) state.size state.cursor
  return { state with cursor := reading.cursor, keyAllowed := reading.breaking }.emit
    (.plain reading.text)

/-- `beginsPlain inFlow c next` holds when a plain scalar may begin with `c`,
which is followed by `next`. -/
def beginsPlain (inFlow : Bool) (c : Char) (next : Option Char) : Bool :=
  !(isGap (some c) || ("-?:,[]\x7b\x7d#&*!|>'\"%@".toList ++ [Char.ofNat 0x60]).contains c) ||
    (!isGap next && (c = '-' || (!inFlow && (c = '?' || c = ':'))))

/-- Reads one more token, or several where indentation calls for them. Nothing is left
to read when the result is absent. -/
def next (state : Tokenizer) : Except Failure (Tokenizer × Bool) := do
  let state ← state.skipGap.dropStale
  let state := state.unwind state.cursor.column
  let follows := state.cursor.peek 1
  let separates (c : Char) : Bool :=
    state.cursor.column = 0 && [c, c, c].isPrefixOf state.cursor.rest && isGap (state.cursor.peek 3)
  let more (state : Except Failure Tokenizer) : Except Failure (Tokenizer × Bool) :=
    return (← state, true)
  match state.cursor.peek 0 with
  | none =>
    let state ← (state.unwind (-1)).dropPlace
    return (state, false)
  | some c =>
    if c = '%' && state.cursor.column = 0 then malformed "directives are not supported"
    else if c = '-' && separates c then more (state.separator .documentStart)
    else if c = '.' && separates c then more (state.separator .documentEnd)
    else if c = '[' then more (state.openBracket .flowSequenceStart)
    else if c = '\x7b' then more (state.openBracket .flowMappingStart)
    else if c = ']' then more (state.closeBracket .flowSequenceEnd)
    else if c = '\x7d' then more (state.closeBracket .flowMappingEnd)
    else if c = ',' then more state.flowEntry
    else if c = '-' && isGap follows then more state.blockEntry
    else if c = '?' && (state.inFlow || isGap follows) then more state.explicitKey
    else if c = ':' && (state.inFlow || isGap follows) then more state.colon
    else if c = '\'' then more (state.quotedScalar false)
    else if c = '"' then more (state.quotedScalar true)
    else if beginsPlain state.inFlow c follows then more state.plainScalar
    else malformed "found a character that cannot start any token"

/-- Reads tokens to the end of the text, at most `fuel` times. -/
def run (state : Tokenizer) : Nat → List Token
  | 0 => state.emitted.reverse
  | fuel + 1 =>
    match state.next with
    | .ok (state, true) => state.run fuel
    | .ok (state, false) => state.emitted.reverse
    | .error failure => state.settled ++ [.broken failure]

end Tokenizer

/-- The tokens of a YAML text. A byte order mark in front is skipped. -/
def Token.ofText (text : Text) : List Token :=
  if !text.all isAllowed then
    [.broken (.malformed "special characters are not allowed".toList)]
  else
    let start : Cursor := { rest := text }
    let start := if start.peek 0 = some '\ufeff' then start.step else start
    ({ size := text.length, cursor := start } : Tokenizer).run (text.length + 2)

end HeaderBook.Yaml
