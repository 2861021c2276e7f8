import HeaderBook.Yaml.Token

/-!
# Nodes

A node is a scalar, a sequence or a mapping, before its scalars are given a
meaning. Nodes are read from tokens. A node that is left out is an empty plain
scalar.
-/

namespace HeaderBook.Yaml

/-- A node of a document. -/
inductive Node where
  /-- A scalar without quotes, which may be anything. -/
  | plain (text : Text)
  /-- A scalar in quotes, which is a text. -/
  | quoted (text : CodeText)
  | sequence (items : List Node)
  | mapping (pairs : List (Node × Node))

namespace Node

/-- The node that is left out. -/
def empty : Node := .plain []

/-- Where a node stands, which decides what it may be. -/
inductive Place where
  /-- Inside brackets: no block collections. -/
  | flow
  /-- In block context. -/
  | block
  /-- After a key or colon in block context, where a sequence need not be
  indented. -/
  | blockOrIndentless
  deriving DecidableEq

/-- The failure of a reader that expected something else than the tokens ahead.
Where the text could not be cut into tokens, that is the failure. -/
def unexpected {α : Type} (reason : String) : List Token → Except Failure α
  | .broken failure :: _ => .error failure
  | _ => malformed reason

mutual

/-- Reads a node. All readers take at most `fuel` nested steps. -/
def read (fuel : Nat) (place : Place) (tokens : List Token) : Except Failure (Node × List Token) :=
  match fuel with
  | 0 => malformed "expected the node content"
  | fuel + 1 =>
    match tokens with
    | .plain text :: rest => .ok (.plain text, rest)
    | .quoted text :: rest => .ok (.quoted text, rest)
    | .flowSequenceStart :: rest => do
      let (items, rest) ← flowItems fuel true rest
      return (.sequence items, rest)
    | .flowMappingStart :: rest => do
      let (pairs, rest) ← flowPairs fuel true rest
      return (.mapping pairs, rest)
    | .blockSequenceStart :: rest =>
      if place = .flow then malformed "expected the node content"
      else do
        let (items, rest) ← blockItems fuel rest
        return (.sequence items, rest)
    | .blockMappingStart :: rest =>
      if place = .flow then malformed "expected the node content"
      else do
        let (pairs, rest) ← blockPairs fuel rest
        return (.mapping pairs, rest)
    | .blockEntry :: _ =>
      if place = .blockOrIndentless then do
        let (items, rest) ← indentlessItems fuel tokens
        return (.sequence items, rest)
      else malformed "expected the node content"
    | _ => unexpected "expected the node content" tokens

/-- Reads a node unless one of `ends` follows, in which case it is left out. -/
def readUnless (fuel : Nat) (place : Place) (ends : List Token) (tokens : List Token) :
    Except Failure (Node × List Token) :=
  match fuel with
  | 0 => malformed "expected the node content"
  | fuel + 1 =>
    match tokens with
    | [] => read fuel place tokens
    | token :: _ => if ends.contains token then .ok (empty, tokens) else read fuel place tokens

/-- The entries of a block sequence. -/
def blockItems (fuel : Nat) (tokens : List Token) : Except Failure (List Node × List Token) :=
  match fuel with
  | 0 => malformed "expected <block end>"
  | fuel + 1 =>
    match tokens with
    | .blockEntry :: rest => do
      let (item, rest) ← readUnless fuel .block [.blockEntry, .blockEnd] rest
      let (items, rest) ← blockItems fuel rest
      return (item :: items, rest)
    | .blockEnd :: rest => .ok ([], rest)
    | _ => unexpected "expected <block end>" tokens

/-- The entries of a sequence that stands at the column of its key. -/
def indentlessItems (fuel : Nat) (tokens : List Token) : Except Failure (List Node × List Token) :=
  match fuel with
  | 0 => malformed "expected <block end>"
  | fuel + 1 =>
    match tokens with
    | .blockEntry :: rest => do
      let (item, rest) ← readUnless fuel .block [.blockEntry, .key, .value, .blockEnd] rest
      let (items, rest) ← indentlessItems fuel rest
      return (item :: items, rest)
    | _ => .ok ([], tokens)

/-- The pairs of a block mapping. -/
def blockPairs (fuel : Nat) (tokens : List Token) :
    Except Failure (List (Node × Node) × List Token) :=
  match fuel with
  | 0 => malformed "expected <block end>"
  | fuel + 1 =>
    match tokens with
    | .key :: rest => do
      let (key, rest) ← readUnless fuel .blockOrIndentless [.key, .value, .blockEnd] rest
      let (value, rest) ← match rest with
        | .value :: rest => readUnless fuel .blockOrIndentless [.key, .value, .blockEnd] rest
        | _ => .ok (empty, rest)
      let (pairs, rest) ← blockPairs fuel rest
      return ((key, value) :: pairs, rest)
    | .blockEnd :: rest => .ok ([], rest)
    | _ => unexpected "expected <block end>" tokens

/-- The entries of a bracketed sequence; `first` tells that none precedes. A key
among them makes a mapping of one pair. -/
def flowItems (fuel : Nat) (first : Bool) (tokens : List Token) :
    Except Failure (List Node × List Token) :=
  match fuel with
  | 0 => malformed "expected ',' or ']'"
  | fuel + 1 =>
    match tokens with
    | .flowSequenceEnd :: rest => .ok ([], rest)
    | _ => do
      let tokens ← match first, tokens with
        | true, _ => pure tokens
        | false, .flowEntry :: rest => pure rest
        | false, _ => unexpected "expected ',' or ']'" tokens
      match tokens with
      | .flowSequenceEnd :: rest => return ([], rest)
      | .key :: rest =>
        let (key, rest) ← readUnless fuel .flow [.value, .flowEntry, .flowSequenceEnd] rest
        let (value, rest) ← match rest with
          | .value :: rest => readUnless fuel .flow [.flowEntry, .flowSequenceEnd] rest
          | _ => .ok (empty, rest)
        let (items, rest) ← flowItems fuel false rest
        return (.mapping [(key, value)] :: items, rest)
      | _ =>
        let (item, rest) ← read fuel .flow tokens
        let (items, rest) ← flowItems fuel false rest
        return (item :: items, rest)

/-- The pairs of a bracketed mapping; `first` tells that none precedes. An entry
that is no key is a key whose value is left out. -/
def flowPairs (fuel : Nat) (first : Bool) (tokens : List Token) :
    Except Failure (List (Node × Node) × List Token) :=
  match fuel with
  | 0 => malformed "expected ',' or a closing brace"
  | fuel + 1 =>
    match tokens with
    | .flowMappingEnd :: rest => .ok ([], rest)
    | _ => do
      let tokens ← match first, tokens with
        | true, _ => pure tokens
        | false, .flowEntry :: rest => pure rest
        | false, _ => unexpected "expected ',' or a closing brace" tokens
      match tokens with
      | .flowMappingEnd :: rest => return ([], rest)
      | .key :: rest =>
        let (key, rest) ← readUnless fuel .flow [.value, .flowEntry, .flowMappingEnd] rest
        let (value, rest) ← match rest with
          | .value :: rest => readUnless fuel .flow [.flowEntry, .flowMappingEnd] rest
          | _ => .ok (empty, rest)
        let (pairs, rest) ← flowPairs fuel false rest
        return ((key, value) :: pairs, rest)
      | _ =>
        let (key, rest) ← read fuel .flow tokens
        let (pairs, rest) ← flowPairs fuel false rest
        return ((key, empty) :: pairs, rest)

end

/-- Reads the only document of a text; a text without a document has none. -/
def ofTokens? (tokens : List Token) : Except Failure (Option Node) := do
  let fuel := 4 * tokens.length + 8
  let alone (node : Node) (rest : List Token) : Except Failure (Option Node) :=
    match rest.dropWhile (· = .documentEnd) with
    | [] => .ok (some node)
    | rest => unexpected "expected a single document in the stream" rest
  match tokens with
  | [] => return none
  | .documentStart :: rest =>
    match rest with
    | [] | .documentStart :: _ | .documentEnd :: _ => alone empty rest
    | _ =>
      let (node, rest) ← read fuel .block rest
      alone node rest
  | _ =>
    let (node, rest) ← read fuel .block tokens
    alone node rest

end Node
end HeaderBook.Yaml
