import HeaderBook.Source.Ampersand

/-!
# Lexemes

A source is cut left to right into line comments, block comments, string
literals, character literals and single other characters. Whichever construct
opens first wins, so a quote inside a comment opens nothing. A construct that is
never completed is made of other characters.

Shielding literals replaces every block comment and literal by a generic marker
and steps over line comments.
-/

namespace HeaderBook.Source

/-- A stretch of source of one kind. -/
inductive Lexeme where
  /-- From `//` to the end of the line, the line break excluded. -/
  | lineComment (text : Text)
  /-- From `/*` to the first `*/` after it. -/
  | blockComment (text : Text)
  /-- A literal between double quotes. -/
  | stringLiteral (text : Text)
  /-- A literal between apostrophes. -/
  | charLiteral (text : Text)
  /-- A character that belongs to none of the others. -/
  | other (c : Char)
  deriving DecidableEq, Repr

namespace Lexeme

/-- The characters of a lexeme. -/
def text : Lexeme → Text
  | .lineComment text | .blockComment text | .stringLiteral text | .charLiteral text => text
  | .other c => [c]

/-- `isShielded lexeme` holds for the kinds that are replaced by a marker. -/
def isShielded : Lexeme → Bool
  | .blockComment _ | .stringLiteral _ | .charLiteral _ => true
  | .lineComment _ | .other _ => false

/-- What follows a line comment's `//`, up to the line break. -/
def lineRest (text : Text) : Text × Text :=
  (text.takeWhile (· ≠ '\n'), text.dropWhile (· ≠ '\n'))

/-- What follows a block comment's `/*`: everything through the first `*/`, and
what comes after it. -/
def blockRest? : Text → Option (Text × Text)
  | '*' :: '/' :: rest => some (['*', '/'], rest)
  | c :: rest => (blockRest? rest).map fun (body, after) => (c :: body, after)
  | [] => none

/-- What follows a literal's opening quote: everything through the closing
quote, and what comes after it. A backslash takes the next character with it,
whatever that is; a bare line break leaves the literal incomplete. -/
def literalRest? (quote : Char) : Text → Option (Text × Text)
  | [] => none
  | c :: rest =>
    if c = quote then some ([c], rest)
    else if c = '\\' then
      match rest with
      | [] => none
      | escaped :: rest =>
        (literalRest? quote rest).map fun (body, after) => (c :: escaped :: body, after)
    else if c = '\n' then none
    else (literalRest? quote rest).map fun (body, after) => (c :: body, after)

/-- The lexeme at the beginning of `c :: rest`, and what follows it. -/
def next (c : Char) (rest : Text) : Lexeme × Text :=
  match c, rest with
  | '/', '/' :: line =>
    let (body, after) := lineRest line
    (.lineComment ('/' :: '/' :: body), after)
  | '/', '*' :: block =>
    match blockRest? block with
    | some (body, after) => (.blockComment ('/' :: '*' :: body), after)
    | none => (.other c, rest)
  | '"', _ =>
    match literalRest? '"' rest with
    | some (body, after) => (.stringLiteral ('"' :: body), after)
    | none => (.other c, rest)
  | '\'', _ =>
    match literalRest? '\'' rest with
    | some (body, after) => (.charLiteral ('\'' :: body), after)
    | none => (.other c, rest)
  | _, _ => (.other c, rest)

theorem append_of_blockRest? {text body after : Text}
    (found : blockRest? text = some (body, after)) : body ++ after = text := by
  fun_induction blockRest? text generalizing body after with
  | case1 rest =>
    simp only [Option.some.injEq, Prod.mk.injEq] at found
    simp [← found.1, ← found.2]
  | case2 c rest _ inductionHypothesis =>
    obtain ⟨⟨body', after'⟩, inner, equal⟩ := Option.map_eq_some_iff.mp found
    simp only [Prod.mk.injEq] at equal
    obtain ⟨rfl, rfl⟩ := equal
    simp [inductionHypothesis inner]
  | case3 => simp at found

theorem append_of_literalRest? {quote : Char} {text body after : Text}
    (found : literalRest? quote text = some (body, after)) : body ++ after = text := by
  fun_induction literalRest? quote text generalizing body after with
  | case1 => simp at found
  | case2 rest =>
    simp only [Option.some.injEq, Prod.mk.injEq] at found
    simp [← found.1, ← found.2]
  | case3 => simp at found
  | case4 escaped rest _ inductionHypothesis =>
    obtain ⟨⟨body', after'⟩, inner, equal⟩ := Option.map_eq_some_iff.mp found
    simp only [Prod.mk.injEq] at equal
    obtain ⟨rfl, rfl⟩ := equal
    simp [inductionHypothesis inner]
  | case5 => simp at found
  | case6 c rest _ _ _ inductionHypothesis =>
    obtain ⟨⟨body', after'⟩, inner, equal⟩ := Option.map_eq_some_iff.mp found
    simp only [Prod.mk.injEq] at equal
    obtain ⟨rfl, rfl⟩ := equal
    simp [inductionHypothesis inner]

/-- A lexeme and what follows it are the text they were cut from. -/
theorem text_next_append (c : Char) (rest : Text) :
    (next c rest).1.text ++ (next c rest).2 = c :: rest := by
  unfold next
  split
  · simp [lineRest, text, List.takeWhile_append_dropWhile]
  · split
    next found => simp [text, append_of_blockRest? found]
    · simp [text]
  · split
    next found => simp [text, append_of_literalRest? found]
    · simp [text]
  · split
    next found => simp [text, append_of_literalRest? found]
    · simp [text]
  · simp [text]

/-- A lexeme is never empty. -/
theorem text_next_ne_nil (c : Char) (rest : Text) : (next c rest).1.text ≠ [] := by
  unfold next
  repeat' split
  all_goals simp [text]

/-- What follows a lexeme is shorter than the text it was cut from. -/
theorem length_next_le (c : Char) (rest : Text) : (next c rest).2.length ≤ rest.length := by
  have lengths := congrArg List.length (text_next_append c rest)
  have positive := List.length_pos_iff.mpr (text_next_ne_nil c rest)
  simp only [List.length_append, List.length_cons] at lengths
  omega

/-- The lexemes of a text, left to right. -/
def ofText : Text → List Lexeme
  | [] => []
  | c :: rest => (next c rest).1 :: ofText (next c rest).2
termination_by text => text.length
decreasing_by
  have := length_next_le c rest
  simp only [List.length_cons]
  omega

/-- Writes lexemes back with every shielded one replaced by a marker. The markers
have successive indices from `index` on. -/
def replaceShielded (kind : MarkerKind) (index : Nat) : List Lexeme → Text
  | [] => []
  | lexeme :: rest =>
    if lexeme.isShielded then kind.format index ++ replaceShielded kind (index + 1) rest
    else lexeme.text ++ replaceShielded kind index rest

end Lexeme

/-- Captures the literals and block comments of a text and leaves markers in
their place. -/
def shieldLiterals (text : Text) (table : FragmentTable) : Text × FragmentTable :=
  let lexemes := Lexeme.ofText text
  (Lexeme.replaceShielded table.kind table.size lexemes,
    table.pushAll ((lexemes.filter Lexeme.isShielded).map Lexeme.text))

/-- The whole shielding pass on a fresh table. Ampersands go first. -/
def shield (text : Text) : Text × FragmentTable :=
  shieldLiterals (shieldAmpersands text) FragmentTable.withAmpersand

end HeaderBook.Source
