import HeaderBook.Source.Lexeme
import HeaderBook.Proofs.AmpersandShield

/-!
# The lexemes of a source

`Lexeme.Cut` says once what a single step of the scan can do; everything about
whole scans is derived from it by induction on the lexemes.

Shielding ampersands and cutting into lexemes commute: an ampersand opens no
lexeme and closes none, and the characters that shielding brings in do not
either. So the constructs that are recognised in the shielded text are those of
the source itself.
-/

namespace HeaderBook.Source.Lexeme

open Text (isDigit)

/-- Every possible step of the scan on `c :: rest`: the lexeme and what follows it. -/
inductive Cut : Char → Text → Lexeme → Text → Prop where
  | lineComment {body after : Text} (oneLine : '\n' ∉ body)
      (ends : after = [] ∨ ∃ more, after = '\n' :: more) :
      Cut '/' ('/' :: (body ++ after)) (.lineComment ('/' :: '/' :: body)) after
  | blockComment {body after : Text} (found : blockRest? (body ++ after) = some (body, after)) :
      Cut '/' ('*' :: (body ++ after)) (.blockComment ('/' :: '*' :: body)) after
  | stringLiteral {body after : Text}
      (found : literalRest? '"' (body ++ after) = some (body, after)) :
      Cut '"' (body ++ after) (.stringLiteral ('"' :: body)) after
  | charLiteral {body after : Text}
      (found : literalRest? '\'' (body ++ after) = some (body, after)) :
      Cut '\'' (body ++ after) (.charLiteral ('\'' :: body)) after
  | other {c : Char} {rest : Text} (noLine : c = '/' → rest.head? ≠ some '/') :
      Cut c rest (.other c) rest

/-- Two slashes begin a comment that takes in the rest of the line. -/
theorem cut_line (line : Text) : Cut '/' ('/' :: line)
    (.lineComment ('/' :: '/' :: line.takeWhile (· ≠ '\n'))) (line.dropWhile (· ≠ '\n')) := by
  have whole := List.takeWhile_append_dropWhile (p := (· ≠ '\n')) (l := line)
  have oneLine : '\n' ∉ line.takeWhile (· ≠ '\n') := by
    intro member
    have all := List.all_takeWhile (p := (· ≠ '\n')) (l := line)
    exact absurd (List.all_eq_true.mp all _ member) (by simp)
  have ends : line.dropWhile (· ≠ '\n') = [] ∨
      ∃ more, line.dropWhile (· ≠ '\n') = '\n' :: more := by
    cases dropped : line.dropWhile (· ≠ '\n') with
    | nil => exact .inl rfl
    | cons c more =>
        have stops := List.head?_dropWhile_not (· ≠ '\n') line
        rw [dropped] at stops
        have newline : c = '\n' := by simpa using stops
        exact .inr ⟨more, by rw [newline]⟩
  have cut := Cut.lineComment oneLine ends
  rwa [whole] at cut

/-- The scan takes one of the possible steps. -/
theorem cut_next (c : Char) (rest : Text) : Cut c rest (next c rest).1 (next c rest).2 := by
  unfold next
  split
  · exact cut_line _
  · split
    next body after found =>
      have whole := append_of_blockRest? found
      rw [← whole] at found ⊢
      exact .blockComment found
    · exact .other (by simp)
  · split
    next body after found =>
      have whole := append_of_literalRest? found
      rw [← whole] at found ⊢
      exact .stringLiteral found
    · exact .other (by simp)
  · split
    next body after found =>
      have whole := append_of_literalRest? found
      rw [← whole] at found ⊢
      exact .charLiteral found
    · exact .other (by simp)
  next _ _ noLine _ =>
    refine .other fun slash head => ?_
    obtain ⟨line, rfl⟩ := List.head?_eq_some_iff.mp head
    exact noLine line slash rfl

/-- The line that a line comment takes is what precedes the first line break. -/
theorem lineRest_append {body after : Text} (oneLine : '\n' ∉ body)
    (ends : after = [] ∨ ∃ more, after = '\n' :: more) : lineRest (body ++ after) = (body, after) := by
  have inside : ∀ c ∈ body, (decide (c ≠ '\n')) = true := by
    intro c member
    have different : c ≠ '\n' := by
      rintro rfl
      exact oneLine member
    simpa using different
  unfold lineRest
  rw [List.takeWhile_append_of_pos inside, List.dropWhile_append_of_pos inside]
  rcases ends with rfl | ⟨more, rfl⟩ <;> simp

/-- The empty text has no lexemes. -/
@[simp] theorem ofText_nil : ofText [] = [] := by
  rw [ofText]

/-- The lexemes of a text are the first and those of what is left. -/
theorem ofText_cons (c : Char) (rest : Text) :
    ofText (c :: rest) = (next c rest).1 :: ofText (next c rest).2 := by
  rw [ofText]

/-- The lexemes of a text are written as the text. -/
theorem flatMap_text_ofText (text : Text) : (ofText text).flatMap Lexeme.text = text := by
  fun_induction ofText text with
  | case1 => rfl
  | case2 c rest inductionHypothesis =>
      rw [List.flatMap_cons, inductionHypothesis, text_next_append]

/-- `isPlain c` holds when `c` begins no construct. -/
def isPlain (c : Char) : Bool :=
  c ≠ '/' && c ≠ '"' && c ≠ '\''

/-- A character that begins nothing is a lexeme of its own. -/
theorem next_eq_other {c : Char} (plain : isPlain c = true) (rest : Text) :
    next c rest = (.other c, rest) := by
  unfold isPlain at plain
  unfold next
  split <;> simp_all

/-- A slash and another one begin a line comment. -/
theorem next_slash_slash (line : Text) :
    next '/' ('/' :: line) =
      (.lineComment ('/' :: '/' :: (lineRest line).1), (lineRest line).2) :=
  rfl

/-- A slash and a star begin a block comment if it is closed. -/
theorem next_slash_star (block : Text) :
    next '/' ('*' :: block) =
      match blockRest? block with
      | some (body, after) => (.blockComment ('/' :: '*' :: body), after)
      | none => (.other '/', '*' :: block) :=
  rfl

/-- A slash before anything else stands for itself. -/
theorem next_slash_other {rest : Text} (noLine : rest.head? ≠ some '/')
    (noBlock : rest.head? ≠ some '*') : next '/' rest = (.other '/', rest) := by
  unfold next
  split <;> simp_all

/-- A quote begins a string literal if it is closed on its line. -/
theorem next_quote (rest : Text) :
    next '"' rest =
      match literalRest? '"' rest with
      | some (body, after) => (.stringLiteral ('"' :: body), after)
      | none => (.other '"', rest) :=
  rfl

/-- An apostrophe begins a character literal if it is closed on its line. -/
theorem next_apostrophe (rest : Text) :
    next '\'' rest =
      match literalRest? '\'' rest with
      | some (body, after) => (.charLiteral ('\'' :: body), after)
      | none => (.other '\'', rest) :=
  rfl

/-- Characters that stand for themselves spell the text. -/
theorem flatMap_text_others (characters : Text) :
    (characters.map Lexeme.other).flatMap text = characters := by
  rw [List.flatMap_map]
  exact List.flatMap_singleton' characters

/-- Characters that begin no construct are lexemes of their own. -/
theorem ofText_append_of_plain {text : Text} (plain : ∀ c ∈ text, isPlain c = true) (rest : Text) :
    ofText (text ++ rest) = text.map .other ++ ofText rest := by
  induction text with
  | nil => rfl
  | cons c text inductionHypothesis =>
      have tail := inductionHypothesis fun d member => plain d (by simp [member])
      rw [List.cons_append, ofText_cons, next_eq_other (plain c (by simp)), tail]
      rfl

/-- The lexemes of text that looks like a generic marker: each of its characters. -/
theorem ofText_marker {digits : Text} (valid : (⟨.generic, digits⟩ : Marker).Valid)
    (after : Text) :
    ofText ('&' :: (digits ++ '.' :: after)) =
      ('&' :: (digits ++ ['.'])).map .other ++ ofText after := by
  have plain : ∀ c ∈ '&' :: (digits ++ ['.']), isPlain c = true := by
    intro c member
    simp only [List.mem_cons, List.mem_append, List.not_mem_nil, or_false] at member
    rcases member with rfl | digit | rfl
    · decide
    · have isDigit := valid.digits c digit
      unfold isPlain
      by_cases slash : c = '/'
      · exact absurd isDigit (by rw [slash]; decide)
      by_cases quote : c = '"'
      · exact absurd isDigit (by rw [quote]; decide)
      by_cases apostrophe : c = '\''
      · exact absurd isDigit (by rw [apostrophe]; decide)
      simp [slash, quote, apostrophe]
    · decide
  have cut := ofText_append_of_plain plain after
  simpa using cut

/-! ### Shielding ampersands commutes with cutting -/

section Shielding

/-- Both parts of a cut, shielded. -/
def shieldedCut (cut : Text × Text) : Text × Text :=
  (shieldAmpersands cut.1, shieldAmpersands cut.2)

/-- A literal ends with its closing quote. -/
theorem exists_concat_of_literalRest? {quote : Char} {text body after : Text}
    (found : literalRest? quote text = some (body, after)) : ∃ inner, body = inner ++ [quote] := by
  fun_induction literalRest? quote text generalizing body after with
  | case1 => simp at found
  | case2 rest =>
      simp only [Option.some.injEq, Prod.mk.injEq] at found
      exact ⟨[], found.1.symm⟩
  | case3 => simp at found
  | case4 escaped rest _ inductionHypothesis =>
      obtain ⟨⟨body', after'⟩, read, equal⟩ := Option.map_eq_some_iff.mp found
      obtain ⟨inner, rfl⟩ := inductionHypothesis read
      exact ⟨'\\' :: escaped :: inner, (Prod.mk.inj equal).1.symm⟩
  | case5 => simp at found
  | case6 c rest _ _ _ inductionHypothesis =>
      obtain ⟨⟨body', after'⟩, read, equal⟩ := Option.map_eq_some_iff.mp found
      obtain ⟨inner, rfl⟩ := inductionHypothesis read
      exact ⟨c :: inner, (Prod.mk.inj equal).1.symm⟩

/-- The closing quote ends a literal. -/
theorem literalRest?_quote (quote : Char) (rest : Text) :
    literalRest? quote (quote :: rest) = some ([quote], rest) := by
  unfold literalRest?
  simp

/-- An escaped character belongs to the literal, whatever it is. -/
theorem literalRest?_escape {quote : Char} (notQuote : '\\' ≠ quote) (escaped : Char)
    (rest : Text) :
    literalRest? quote ('\\' :: escaped :: rest) =
      (literalRest? quote rest).map fun (body, after) => ('\\' :: escaped :: body, after) := by
  rw [literalRest?.eq_def]
  simp [notQuote]

/-- Any other character on the line belongs to the literal. -/
theorem literalRest?_plain {quote c : Char} (notQuote : c ≠ quote) (notBackslash : c ≠ '\\')
    (notNewline : c ≠ '\n') (rest : Text) :
    literalRest? quote (c :: rest) =
      (literalRest? quote rest).map fun (body, after) => (c :: body, after) := by
  rw [literalRest?.eq_def]
  simp [notQuote, notBackslash, notNewline]

/-- A line break leaves a literal unclosed. -/
theorem literalRest?_newline {quote : Char} (notQuote : '\n' ≠ quote) (rest : Text) :
    literalRest? quote ('\n' :: rest) = none := by
  rw [literalRest?.eq_def]
  simp [notQuote]

/-- An insertion belongs to the body of a literal. -/
theorem literalRest?_inserted {quote : Char} (noDigit : isDigit quote = false)
    (notDot : quote ≠ '.') (c : Char) (rest text : Text) :
    literalRest? quote (inserted c rest ++ text) =
      (literalRest? quote text).map fun (body, after) => (inserted c rest ++ body, after) := by
  have notZero : '0' ≠ quote := by
    rintro rfl
    exact absurd noDigit (by decide)
  rcases inserted_cases c rest with empty | marker
  · simp [empty]
  · rw [marker, List.cons_append, List.cons_append, List.nil_append,
      literalRest?_plain notZero (by decide) (by decide),
      literalRest?_plain notDot.symm (by decide) (by decide), Option.map_map]
    rfl

/-- Shielding ampersands does not change where a literal ends. -/
theorem literalRest?_shieldAmpersands {quote : Char} (noDigit : isDigit quote = false)
    (notDot : quote ≠ '.') (plain : quote ≠ '&') (text : Text) :
    literalRest? quote (shieldAmpersands text) =
      (literalRest? quote text).map shieldedCut := by
  -- What is inserted after a character of the body depends on the body alone,
  -- since the closing quote is no digit.
  have same : ∀ {c rest body after}, literalRest? quote rest = some (body, after) →
      inserted c rest = inserted c body := by
    intro c rest body after found
    obtain ⟨inner, rfl⟩ := exists_concat_of_literalRest? found
    rw [← append_of_literalRest? found]
    exact inserted_append_of_mem c after ⟨quote, by simp, noDigit⟩
  fun_induction literalRest? quote text with
  | case1 => rfl
  | case2 rest =>
      rw [shieldAmpersands_cons_of_ne plain, literalRest?_quote, Option.map_some, shieldedCut]
      simp [shieldAmpersands_cons_of_ne plain]
  | case3 notQuote => simp [shieldAmpersands, literalRest?, notQuote]
  | case4 escaped rest notQuote inductionHypothesis =>
      rw [shieldAmpersands_cons_of_ne (by decide), shieldAmpersands_cons,
        literalRest?_escape notQuote, literalRest?_inserted noDigit notDot, inductionHypothesis]
      cases found : literalRest? quote rest with
      | none => rfl
      | some cut =>
          obtain ⟨body, after⟩ := cut
          simp [shieldedCut, shieldAmpersands_cons, inserted_of_ne, same found]
  | case5 rest notQuote _ =>
      rw [shieldAmpersands_cons_of_ne (by decide), literalRest?_newline notQuote]
      rfl
  | case6 c rest notQuote notBackslash notNewline inductionHypothesis =>
      rw [shieldAmpersands_cons, literalRest?_plain notQuote notBackslash notNewline,
        literalRest?_inserted noDigit notDot, inductionHypothesis]
      cases found : literalRest? quote rest with
      | none => rfl
      | some cut =>
          obtain ⟨body, after⟩ := cut
          simp [shieldedCut, shieldAmpersands_cons, same found]

/-- A block comment ends with `*/`. -/
theorem exists_concat_of_blockRest? {text body after : Text}
    (found : blockRest? text = some (body, after)) : ∃ inner, body = inner ++ ['*', '/'] := by
  fun_induction blockRest? text generalizing body after with
  | case1 rest =>
      simp only [Option.some.injEq, Prod.mk.injEq] at found
      exact ⟨[], found.1.symm⟩
  | case2 c rest _ inductionHypothesis =>
      obtain ⟨⟨body', after'⟩, read, equal⟩ := Option.map_eq_some_iff.mp found
      obtain ⟨inner, rfl⟩ := inductionHypothesis read
      exact ⟨c :: inner, (Prod.mk.inj equal).1.symm⟩
  | case3 => simp at found

/-- A character that is not the star of a `*/` belongs to the body of a block
comment. -/
theorem blockRest?_plain {c : Char} {rest : Text} (goesOn : c = '*' → rest.head? ≠ some '/') :
    blockRest? (c :: rest) = (blockRest? rest).map fun (body, after) => (c :: body, after) := by
  rw [blockRest?.eq_def]
  split
  next rest' equal =>
    simp only [List.cons.injEq] at equal
    exact absurd (by simp [equal.2]) (goesOn equal.1)
  next c' rest' _ equal =>
    simp only [List.cons.injEq] at equal
    rw [equal.1, equal.2]
  next equal => simp at equal

/-- What shielding inserts never closes a block comment. -/
theorem blockRest?_inserted (c : Char) (rest text : Text) :
    blockRest? (inserted c rest ++ text) =
      (blockRest? text).map fun (body, after) => (inserted c rest ++ body, after) := by
  rcases inserted_cases c rest with empty | marker
  · simp [empty]
  · rw [marker, List.cons_append, List.cons_append, List.nil_append,
      blockRest?_plain (by simp), blockRest?_plain (by simp), Option.map_map]
    rfl

/-- Shielding ampersands does not change where a block comment ends. -/
theorem blockRest?_shieldAmpersands (text : Text) :
    blockRest? (shieldAmpersands text) = (blockRest? text).map shieldedCut := by
  fun_induction blockRest? text with
  | case1 rest =>
      rw [shieldAmpersands_cons_of_ne (by decide), shieldAmpersands_cons_of_ne (by decide)]
      rfl
  | case2 c rest goesOn inductionHypothesis =>
      have closed : c = '*' → (inserted c rest ++ shieldAmpersands rest).head? ≠ some '/' := by
        rintro rfl head
        rw [inserted_of_ne (by decide), List.nil_append, head?_shieldAmpersands] at head
        obtain ⟨after, rfl⟩ := List.head?_eq_some_iff.mp head
        exact goesOn after rfl rfl
      rw [shieldAmpersands_cons, blockRest?_plain closed, blockRest?_inserted, inductionHypothesis]
      cases found : blockRest? rest with
      | none => rfl
      | some cut =>
          obtain ⟨body, after⟩ := cut
          have same : inserted c rest = inserted c body := by
            obtain ⟨inner, rfl⟩ := exists_concat_of_blockRest? found
            rw [← append_of_blockRest? found]
            exact inserted_append_of_mem c after ⟨'*', by simp, by decide⟩
          simp [shieldedCut, shieldAmpersands_cons, same]
  | case3 => rfl

/-- A line of a shielded text is the line of the source, shielded. -/
theorem lineRest_shieldAmpersands (text : Text) :
    lineRest (shieldAmpersands text) = shieldedCut (lineRest text) := by
  have whole := List.takeWhile_append_dropWhile (p := (· ≠ '\n')) (l := text)
  have allBody : ∀ c ∈ text.takeWhile (· ≠ '\n'), (decide (c ≠ '\n')) = true :=
    List.all_eq_true.mp List.all_takeWhile
  have all : ∀ c ∈ shieldAmpersands (text.takeWhile (· ≠ '\n')), (decide (c ≠ '\n')) = true := by
    intro c member
    by_cases newline : c = '\n'
    · have source := mem_of_mem_shieldAmpersands member (by simp [newline]) (by simp [newline])
      exact allBody c source
    · simp [newline]
  have stops : (shieldAmpersands (text.dropWhile (· ≠ '\n'))).takeWhile (· ≠ '\n') = [] ∧
      (shieldAmpersands (text.dropWhile (· ≠ '\n'))).dropWhile (· ≠ '\n') =
        shieldAmpersands (text.dropWhile (· ≠ '\n')) ∧
      Boundary (text.takeWhile (· ≠ '\n')) (text.dropWhile (· ≠ '\n')) := by
    cases dropped : text.dropWhile (· ≠ '\n') with
    | nil => exact ⟨rfl, rfl, .of_nil _⟩
    | cons c rest =>
        have head := List.head?_dropWhile_not (· ≠ '\n') text
        rw [dropped] at head
        have newline : c = '\n' := by simpa using head
        subst newline
        rw [shieldAmpersands_cons_of_ne (by decide)]
        exact ⟨by simp, by simp, .of_head (by decide) (by decide) _ _⟩
  unfold lineRest shieldedCut
  conv => lhs; rw [← whole]
  rw [shieldAmpersands_append stops.2.2, List.takeWhile_append_of_pos all,
    List.dropWhile_append_of_pos all, stops.1, stops.2.1, List.append_nil]

/-- The same kind of lexeme with its text changed. An other character is kept. -/
def mapText (change : Text → Text) : Lexeme → Lexeme
  | .lineComment text => .lineComment (change text)
  | .blockComment text => .blockComment (change text)
  | .stringLiteral text => .stringLiteral (change text)
  | .charLiteral text => .charLiteral (change text)
  | .other c => .other c

/-- Before anything but an ampersand, a step on the shielded text is the step on
the source, shielded. -/
theorem next_shieldAmpersands {c : Char} (plain : c ≠ '&') (rest : Text) :
    next c (shieldAmpersands rest) =
      ((next c rest).1.mapText shieldAmpersands, shieldAmpersands (next c rest).2) := by
  by_cases slash : c = '/'
  · subst slash
    have keeps := shieldAmpersands_cons_of_ne (c := '/') (by decide)
    have head := head?_shieldAmpersands rest
    by_cases noLine : rest.head? = some '/'
    · obtain ⟨line, rfl⟩ := List.head?_eq_some_iff.mp noLine
      rw [keeps, next_slash_slash, next_slash_slash, lineRest_shieldAmpersands]
      simp [mapText, shieldedCut, keeps]
    · by_cases noBlock : rest.head? = some '*'
      · obtain ⟨block, rfl⟩ := List.head?_eq_some_iff.mp noBlock
        have keepsStar := shieldAmpersands_cons_of_ne (c := '*') (by decide)
        rw [keepsStar, next_slash_star, next_slash_star, blockRest?_shieldAmpersands]
        cases blockRest? block <;> simp [mapText, shieldedCut, keeps, keepsStar]
      · rw [next_slash_other noLine noBlock, next_slash_other (by rwa [head]) (by rwa [head])]
        rfl
  by_cases quote : c = '"'
  · subst quote
    have keeps := shieldAmpersands_cons_of_ne (c := '"') (by decide)
    rw [next_quote, next_quote,
      literalRest?_shieldAmpersands (by decide) (by decide) (by decide)]
    cases literalRest? '"' rest <;> simp [mapText, shieldedCut, keeps]
  by_cases apostrophe : c = '\''
  · subst apostrophe
    have keeps := shieldAmpersands_cons_of_ne (c := '\'') (by decide)
    rw [next_apostrophe, next_apostrophe,
      literalRest?_shieldAmpersands (by decide) (by decide) (by decide)]
    cases literalRest? '\'' rest <;> simp [mapText, shieldedCut, keeps]
  · have plain' : isPlain c = true := by simp [isPlain, slash, quote, apostrophe]
    rw [next_eq_other plain', next_eq_other plain']
    rfl

/-- The lexemes of the shielded text in place of one lexeme of the source. -/
def shielded (after : Text) : Lexeme → List Lexeme
  | .other c => .other c :: (inserted c after).map .other
  | lexeme => [lexeme.mapText shieldAmpersands]

/-- The lexemes of the shielded text, from those of the source. -/
def shieldAll : List Lexeme → List Lexeme
  | [] => []
  | lexeme :: rest => lexeme.shielded (rest.flatMap Lexeme.text) ++ shieldAll rest

/-- Characters that stand for themselves are not replaced. -/
theorem replaceShielded_others (kind : MarkerKind) (index : Nat) (text : Text)
    (rest : List Lexeme) :
    replaceShielded kind index (text.map .other ++ rest) =
      text ++ replaceShielded kind index rest := by
  induction text with
  | nil => rfl
  | cons c text inductionHypothesis =>
      rw [List.map_cons, List.cons_append, replaceShielded, inductionHypothesis]
      rfl

/-- None of them is shielded. -/
theorem filter_isShielded_others (text : Text) :
    (text.map other).filter isShielded = [] := by
  simp [isShielded]

/-- Cutting a shielded text gives the lexemes of the source, shielded. -/
theorem ofText_shieldAmpersands (source : Text) :
    ofText (shieldAmpersands source) = shieldAll (ofText source) := by
  fun_induction ofText source with
  | case1 => simp [shieldAll]
  | case2 c rest inductionHypothesis =>
      have after := flatMap_text_ofText (next c rest).2
      rw [shieldAll, after, ← inductionHypothesis]
      by_cases ampersand : c = '&'
      · subst ampersand
        have plain : isPlain '&' = true := by decide
        have insertedPlain : ∀ d ∈ inserted '&' rest, isPlain d = true := by
          rcases inserted_cases '&' rest with empty | marker
          · simp [empty]
          · rw [marker]
            exact List.forall_mem_cons.mpr ⟨rfl, List.forall_mem_singleton.mpr rfl⟩
        rw [shieldAmpersands_cons, ofText_cons, next_eq_other plain, next_eq_other plain,
          ofText_append_of_plain insertedPlain]
        rfl
      · rw [shieldAmpersands_cons_of_ne ampersand, ofText_cons, next_shieldAmpersands ampersand]
        have whole := text_next_append c rest
        cases kind : (next c rest).1 with
        | other d =>
            rw [kind] at whole
            obtain rfl : d = c := (List.cons.inj whole).1
            simp [mapText, shielded, inserted_of_ne ampersand]
        | _ => rfl

end Shielding

end HeaderBook.Source.Lexeme
