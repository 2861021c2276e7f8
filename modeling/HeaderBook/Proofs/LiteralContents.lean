import HeaderBook.Proofs.SourceDocument

/-!
# The contents of literals do not influence structure

When one literal or block comment of a source is replaced by another complete one
of the same kind, the shielded text stays the same, and everything but the replaced
fragment is computed from the shielded text.

The source must have no unterminated construct: a quote that opens nothing might
be closed by what the replacement holds. Such a quote, or the beginning of such a
block comment, is still there in the shielded text, which is where `Terminated`
looks for it.
-/

namespace HeaderBook.Source

open Text (isDigit)

namespace Lexeme

/-! ### Captured lexemes are read the same whatever follows -/

/-- The body of a literal determines where it ends. -/
theorem literalRest?_append {quote : Char} {text body after : Text}
    (found : literalRest? quote text = some (body, after)) (other : Text) :
    literalRest? quote (body ++ other) = some (body, other) := by
  fun_induction literalRest? quote text generalizing body after with
  | case1 => simp at found
  | case2 rest =>
      simp only [Option.some.injEq, Prod.mk.injEq] at found
      rw [← found.1]
      exact literalRest?_quote quote other
  | case3 => simp at found
  | case4 escaped rest notQuote inductionHypothesis =>
      obtain ⟨⟨inner, after'⟩, tail, equal⟩ := Option.map_eq_some_iff.mp found
      simp only [Prod.mk.injEq] at equal
      obtain ⟨rfl, rfl⟩ := equal
      rw [List.cons_append, List.cons_append, literalRest?_escape notQuote,
        inductionHypothesis tail]
      rfl
  | case5 => simp at found
  | case6 c rest notQuote notBackslash notNewline inductionHypothesis =>
      obtain ⟨⟨inner, after'⟩, tail, equal⟩ := Option.map_eq_some_iff.mp found
      simp only [Prod.mk.injEq] at equal
      obtain ⟨rfl, rfl⟩ := equal
      rw [List.cons_append, literalRest?_plain notQuote notBackslash notNewline,
        inductionHypothesis tail]
      rfl

/-- The body of a block comment determines where it ends. -/
theorem blockRest?_append {text body after : Text} (found : blockRest? text = some (body, after))
    (other : Text) : blockRest? (body ++ other) = some (body, other) := by
  fun_induction blockRest? text generalizing body after with
  | case1 rest =>
      simp only [Option.some.injEq, Prod.mk.injEq] at found
      rw [← found.1]
      rfl
  | case2 c rest notClosing inductionHypothesis =>
      obtain ⟨⟨inner, after'⟩, tail, equal⟩ := Option.map_eq_some_iff.mp found
      simp only [Prod.mk.injEq] at equal
      obtain ⟨rfl, rfl⟩ := equal
      have whole := append_of_blockRest? tail
      obtain ⟨front, ends⟩ := exists_concat_of_blockRest? tail
      have goesOn : c = '*' → (inner ++ other).head? ≠ some '/' := by
        intro star slash
        have nonempty : inner ≠ [] := by simp [ends]
        obtain ⟨d, more, rfl⟩ := List.exists_cons_of_ne_nil nonempty
        obtain rfl : d = '/' := by simpa using slash
        exact notClosing _ star whole.symm
      rw [List.cons_append, blockRest?_plain goesOn, inductionHypothesis tail]
      rfl
  | case3 => simp at found

/-- A captured lexeme is read again from its characters, whatever follows them. -/
theorem next_of_captured {c : Char} {rest after : Text} {lexeme : Lexeme}
    (step : next c rest = (lexeme, after)) (captured : lexeme.isShielded = true) :
    ∃ body, lexeme.text = c :: body ∧ ∀ other, next c (body ++ other) = (lexeme, other) := by
  have cut := cut_next c rest
  rw [step] at cut
  cases cut with
  | lineComment => simp [isShielded] at captured
  | @blockComment body _ found =>
      refine ⟨'*' :: body, rfl, fun other => ?_⟩
      rw [List.cons_append, next_slash_star, blockRest?_append found]
  | @stringLiteral body _ found =>
      refine ⟨body, rfl, fun other => ?_⟩
      rw [next_quote, literalRest?_append found]
  | @charLiteral body _ found =>
      refine ⟨body, rfl, fun other => ?_⟩
      rw [next_apostrophe, literalRest?_append found]
  | other => simp [isShielded] at captured

/-- A captured construct is read again as itself whatever follows it. -/
theorem ofText_append_of_captured {c : Char} {rest after : Text} {lexeme : Lexeme}
    (step : next c rest = (lexeme, after)) (captured : lexeme.isShielded = true) (other : Text) :
    ofText (lexeme.text ++ other) = lexeme :: ofText other := by
  obtain ⟨body, text, again⟩ := next_of_captured step captured
  rw [text, List.cons_append, ofText_cons, again]

/-- The character with which a captured lexeme opens. -/
def opening : Lexeme → Char
  | .stringLiteral _ => '"'
  | .charLiteral _ => '\''
  | _ => '/'

/-- A captured construct begins with the character that opens its kind. -/
theorem head?_of_captured {c : Char} {rest after : Text} {lexeme : Lexeme}
    (step : next c rest = (lexeme, after)) (captured : lexeme.isShielded = true) :
    lexeme.text.head? = some lexeme.opening := by
  have cut := cut_next c rest
  rw [step] at cut
  cases cut with
  | lineComment => simp [isShielded] at captured
  | blockComment => rfl
  | stringLiteral => rfl
  | charLiteral => rfl
  | other => simp [isShielded] at captured

/-- Every captured construct of a source begins with its opening character. -/
theorem head?_of_mem_ofText {source : Text} {lexeme : Lexeme} (member : lexeme ∈ ofText source)
    (captured : lexeme.isShielded = true) : lexeme.text.head? = some lexeme.opening := by
  fun_induction ofText source with
  | case1 => exact absurd member List.not_mem_nil
  | case2 c rest inductionHypothesis =>
      rcases List.mem_cons.mp member with rfl | later
      · exact head?_of_captured rfl captured
      · exact inductionHypothesis later

/-- A construct stays captured, or not, when its text changes. -/
@[simp] theorem isShielded_mapText (change : Text → Text) (lexeme : Lexeme) :
    (lexeme.mapText change).isShielded = lexeme.isShielded := by
  cases lexeme <;> rfl

/-- The opening character of a construct does not depend on its text. -/
@[simp] theorem opening_mapText (change : Text → Text) (lexeme : Lexeme) :
    (lexeme.mapText change).opening = lexeme.opening := by
  cases lexeme <;> rfl

/-- A change of text reaches the whole text of a captured construct. -/
theorem text_mapText {lexeme : Lexeme} (captured : lexeme.isShielded = true)
    (change : Text → Text) : (lexeme.mapText change).text = change lexeme.text := by
  cases lexeme with
  | lineComment => simp [isShielded] at captured
  | other => simp [isShielded] at captured
  | blockComment => rfl
  | stringLiteral => rfl
  | charLiteral => rfl

/-- A text that is one captured lexeme is cut off by the first step. -/
theorem exists_next_of_ofText {fragment : Text} {lexeme : Lexeme}
    (complete : ofText fragment = [lexeme]) : ∃ c rest, next c rest = (lexeme, []) := by
  cases fragment with
  | nil => simp at complete
  | cons c rest =>
      rw [ofText_cons] at complete
      obtain ⟨first, others⟩ := List.cons.inj complete
      have written := flatMap_text_ofText (next c rest).2
      rw [others] at written
      exact ⟨c, rest, Prod.ext first written.symm⟩

/-- The lexemes after a part of a scan are those of the text after it. -/
theorem ofText_flatMap_of_append {source : Text} {left right : List Lexeme}
    (scan : ofText source = left ++ right) : ofText (right.flatMap text) = right := by
  induction left generalizing source with
  | nil => rw [← List.nil_append right, ← scan, flatMap_text_ofText]
  | cons first left inductionHypothesis =>
      cases source with
      | nil => simp at scan
      | cons c rest =>
          rw [ofText_cons, List.cons_append] at scan
          exact inductionHypothesis (List.cons.inj scan).2

/-! ### Replacing a lexeme -/

/-- No construct is left open: neither quote stands alone, and no slash has a star
after it. -/
structure Settled (lexemes : List Lexeme) : Prop where
  noQuote : .other '"' ∉ lexemes
  noApostrophe : .other '\'' ∉ lexemes
  noBlock : ¬ [.other '/', .other '*'] <:+: lexemes

/-- What follows the first construct of a settled list is settled. -/
theorem Settled.tail {lexeme : Lexeme} {lexemes : List Lexeme} (settled : Settled (lexeme :: lexemes)) :
    Settled lexemes where
  noQuote member := settled.noQuote (List.mem_cons_of_mem _ member)
  noApostrophe member := settled.noApostrophe (List.mem_cons_of_mem _ member)
  noBlock inside := settled.noBlock (List.infix_cons inside)

/-- A slash that is read as a character is read so before any text that begins
alike. -/
theorem next_slash_of_settled {rest other : Text} (noLine : rest.head? ≠ some '/')
    (settled : Settled (.other '/' :: ofText rest)) (same : other.head? = rest.head?) :
    next '/' other = (.other '/', other) := by
  apply next_slash_other
  · rwa [same]
  · rw [same]
    intro star
    obtain ⟨more, rfl⟩ := List.head?_eq_some_iff.mp star
    rw [ofText_cons, next_eq_other rfl] at settled
    exact settled.noBlock (List.prefix_append [.other '/', .other '*'] (ofText more)).isInfix

section

variable {source fragment : Text} {before after : List Lexeme} {old : Lexeme}

/-- The text before and at the replaced lexeme begins as before. -/
theorem head?_replace (scan : ofText source = before ++ old :: after)
    (captured : old.isShielded = true)
    (complete : ofText fragment = [old.mapText fun _ => fragment]) :
    (before.flatMap text ++ fragment ++ after.flatMap text).head? = source.head? := by
  cases source with
  | nil => simp at scan
  | cons c rest =>
      rw [ofText_cons] at scan
      have whole := text_next_append c rest
      cases before with
      | nil =>
          obtain ⟨first, _⟩ := List.cons.inj scan
          obtain ⟨c', rest', step⟩ := exists_next_of_ofText complete
          have opens : old.text.head? = some old.opening :=
            head?_of_captured (Prod.ext first rfl) captured
          have opensNew : fragment.head? = some old.opening := by
            have head := head?_of_captured step (by simpa using captured)
            rwa [text_mapText captured, opening_mapText] at head
          rw [first] at whole
          rw [← whole, List.flatMap_nil, List.nil_append, List.head?_append, List.head?_append,
            opens, opensNew]
          rfl
      | cons first before =>
          obtain ⟨same, _⟩ := List.cons.inj scan
          have nonempty := text_next_ne_nil c rest
          rw [same] at whole nonempty
          obtain ⟨d, more, shape⟩ := List.exists_cons_of_ne_nil nonempty
          rw [← whole, List.flatMap_cons, shape]
          rfl

/-- Where no construct is left open, a replaced lexeme changes no other lexeme. -/
theorem ofText_replace (settled : Settled (ofText source))
    (scan : ofText source = before ++ old :: after) (captured : old.isShielded = true)
    (complete : ofText fragment = [old.mapText fun _ => fragment]) :
    ofText (before.flatMap text ++ fragment ++ after.flatMap text) =
      before ++ (old.mapText fun _ => fragment) :: after := by
  induction before generalizing source with
  | nil =>
      have split : ofText source = [old] ++ after := scan
      have rest := ofText_flatMap_of_append split
      obtain ⟨c, tail, step⟩ := exists_next_of_ofText complete
      have read := ofText_append_of_captured step (by simpa using captured) (after.flatMap text)
      rw [text_mapText captured, rest] at read
      exact read
  | cons first before inductionHypothesis =>
      cases source with
      | nil => simp at scan
      | cons c rest =>
          have cut := cut_next c rest
          rw [ofText_cons, List.cons_append] at scan
          rw [ofText_cons] at settled
          generalize step : next c rest = result at cut scan settled
          obtain ⟨lexeme, remaining⟩ := result
          simp only [List.cons.injEq] at scan settled
          obtain ⟨rfl, scan⟩ := scan
          have tail := inductionHypothesis settled.tail scan
          have head := head?_replace scan captured complete
          have shape : (lexeme :: before).flatMap text ++ fragment ++ after.flatMap text =
              lexeme.text ++ (before.flatMap text ++ fragment ++ after.flatMap text) := by
            simp
          rw [shape, List.cons_append, ← tail]
          generalize before.flatMap text ++ fragment ++ after.flatMap text = replaced at head
          cases cut with
          | lineComment oneLine ends =>
              rcases ends with rfl | ⟨more, rfl⟩
              · simp at scan
              · obtain ⟨more', rfl⟩ := List.head?_eq_some_iff.mp head
                rw [text, List.cons_append, List.cons_append, ofText_cons, next_slash_slash,
                  lineRest_append oneLine (.inr ⟨more', rfl⟩)]
          | blockComment => exact ofText_append_of_captured step rfl replaced
          | stringLiteral => exact ofText_append_of_captured step rfl replaced
          | charLiteral => exact ofText_append_of_captured step rfl replaced
          | other noLine =>
              have next : next c replaced = (.other c, replaced) := by
                by_cases slash : c = '/'
                · subst slash
                  exact next_slash_of_settled (noLine rfl) settled head
                · apply next_eq_other
                  have quote : c ≠ '"' := by
                    rintro rfl
                    exact settled.noQuote List.mem_cons_self
                  have apostrophe : c ≠ '\'' := by
                    rintro rfl
                    exact settled.noApostrophe List.mem_cons_self
                  simp [isPlain, slash, quote, apostrophe]
              rw [text, List.singleton_append, ofText_cons, next]

end

/-! ### The shielded text -/

/-- Shielding ampersands keeps a captured construct one construct. -/
theorem shielded_of_captured {lexeme : Lexeme} (captured : lexeme.isShielded = true)
    (after : Text) : lexeme.shielded after = [lexeme.mapText shieldAmpersands] := by
  cases lexeme with
  | other => simp [isShielded] at captured
  | lineComment => rfl
  | blockComment => rfl
  | stringLiteral => rfl
  | charLiteral => rfl

/-- A captured lexeme begins with neither a digit nor a full stop. -/
theorem opening_outside (lexeme : Lexeme) : isDigit lexeme.opening = false ∧ lexeme.opening ≠ '.' := by
  have quote : isDigit '"' = false ∧ '"' ≠ '.' := by decide
  have apostrophe : isDigit '\'' = false ∧ '\'' ≠ '.' := by decide
  have slash : isDigit '/' = false ∧ '/' ≠ '.' := by decide
  cases lexeme with
  | stringLiteral => exact quote
  | charLiteral => exact apostrophe
  | lineComment => exact slash
  | blockComment => exact slash
  | other => exact slash

/-- What is inserted after a character does not depend on a captured lexeme that
follows later. -/
theorem inserted_append_captured (c : Char) (left : Text) {lexeme : Lexeme}
    (opens : lexeme.text.head? = some lexeme.opening) (after : Text) :
    inserted c (left ++ (lexeme.text ++ after)) = inserted c left := by
  have same := opensGeneric_append_of_head left fun d (first : (lexeme.text ++ after).head? = some d) => by
    rw [List.head?_append, opens] at first
    obtain rfl : lexeme.opening = d := Option.some.inj first
    exact lexeme.opening_outside
  rw [inserted, same, inserted]

/-- The shielded text is the same for two captured lexemes in one place. -/
theorem replaceShielded_shieldAll (kind : MarkerKind) (index : Nat) {old new : Lexeme}
    (captured : old.isShielded = true) (opens : old.text.head? = some old.opening)
    (capturedNew : new.isShielded = true) (opensNew : new.text.head? = some new.opening)
    (before after : List Lexeme) :
    replaceShielded kind index (shieldAll (before ++ new :: after)) =
      replaceShielded kind index (shieldAll (before ++ old :: after)) := by
  induction before generalizing index with
  | nil =>
      simp [shieldAll, shielded_of_captured captured, shielded_of_captured capturedNew,
        replaceShielded, captured, capturedNew]
  | cons first before inductionHypothesis =>
      rw [List.cons_append, List.cons_append, shieldAll, shieldAll]
      cases first with
      | other c =>
          have same : ∀ {lexeme : Lexeme}, lexeme.text.head? = some lexeme.opening →
              inserted c ((before ++ lexeme :: after).flatMap text) =
                inserted c (before.flatMap text) := by
            intro lexeme head
            rw [List.flatMap_append, List.flatMap_cons]
            exact inserted_append_captured c _ head _
          rw [shielded, shielded, same opens, same opensNew, ← List.map_cons,
            replaceShielded_others, replaceShielded_others, inductionHypothesis]
      | lineComment line =>
          simp [shielded, mapText, replaceShielded, isShielded, inductionHypothesis]
      | blockComment body =>
          simp [shielded, mapText, replaceShielded, isShielded, inductionHypothesis]
      | stringLiteral body =>
          simp [shielded, mapText, replaceShielded, isShielded, inductionHypothesis]
      | charLiteral body =>
          simp [shielded, mapText, replaceShielded, isShielded, inductionHypothesis]

/-- The captured fragments are shielded one by one. -/
theorem filter_isShielded_shieldAll (lexemes : List Lexeme) :
    ((shieldAll lexemes).filter isShielded).map text =
      (lexemes.filter isShielded).map fun lexeme => shieldAmpersands lexeme.text := by
  induction lexemes with
  | nil => rfl
  | cons lexeme lexemes inductionHypothesis =>
      rw [shieldAll, List.filter_append, List.map_append, inductionHypothesis]
      cases lexeme with
      | other c =>
          rw [shielded, ← List.map_cons, filter_isShielded_others]
          rfl
      | lineComment line => rfl
      | blockComment body => rfl
      | stringLiteral body => rfl
      | charLiteral body => rfl

end Lexeme

/-! ### Terminated sources -/

/-- The characters of a lexeme that is no line comment. -/
def Lexeme.visible : Lexeme → Text
  | .lineComment _ => []
  | lexeme => lexeme.text

/-- A text with its line comments taken out. -/
def outsideLineComments (text : Text) : Text :=
  (Lexeme.ofText text).flatMap Lexeme.visible

/-- A text without a quote, an apostrophe or the beginning of a block comment. -/
structure OpensNothing (text : Text) : Prop where
  noQuote : '"' ∉ text
  noApostrophe : '\'' ∉ text
  noBlock : ¬ ['/', '*'] <:+: text

/-- The text that is left of a source when its literals and block comments are
captured. -/
def shieldedText (source : Text) : Text :=
  (shield source).1

/-- The shielded text is the shielded source with markers for its captured constructs. -/
theorem shieldedText_eq (source : Text) :
    shieldedText source =
      Lexeme.replaceShielded .generic 1 (Lexeme.shieldAll (Lexeme.ofText source)) := by
  rw [← Lexeme.ofText_shieldAmpersands]
  rfl

/-- All literals and block comments of the source are terminated: the shielded text
opens none outside line comments. -/
def Terminated (source : Text) : Prop :=
  OpensNothing (outsideLineComments (shieldedText source))

/-- The end of a text that opens nothing opens nothing. -/
theorem OpensNothing.of_append {left right : Text} (nothing : OpensNothing (left ++ right)) :
    OpensNothing right where
  noQuote member := nothing.noQuote (List.mem_append_right left member)
  noApostrophe member := nothing.noApostrophe (List.mem_append_right left member)
  noBlock inside := nothing.noBlock (inside.trans (List.suffix_append left right).isInfix)

/-- The text outside line comments is read off construct by construct. -/
theorem outsideLineComments_cons (c : Char) (rest : Text) :
    outsideLineComments (c :: rest) =
      (Lexeme.next c rest).1.visible ++ outsideLineComments (Lexeme.next c rest).2 := by
  rw [outsideLineComments, Lexeme.ofText_cons, List.flatMap_cons]
  rfl

/-- A marker in front does not hide what the text opens. -/
theorem OpensNothing.of_marker {number : Nat} {text : Text}
    (nothing : OpensNothing (outsideLineComments (MarkerKind.generic.format number ++ text))) :
    OpensNothing (outsideLineComments text) := by
  have marker := Lexeme.ofText_marker (HeaderBook.Marker.valid_ofIndex .generic number) text
  have shape : MarkerKind.generic.format number ++ text =
      '&' :: (Text.decimal number ++ '.' :: text) := by
    simp [MarkerKind.format, MarkerKind.opening, MarkerKind.closing]
  rw [outsideLineComments, shape, marker, List.flatMap_append] at nothing
  exact nothing.of_append

/-- A character that is a construct of its own lies outside line comments. -/
theorem outsideLineComments_other {c : Char} {rest : Text}
    (step : Lexeme.next c rest = (.other c, rest)) :
    outsideLineComments (c :: rest) = c :: outsideLineComments rest := by
  rw [outsideLineComments_cons, step]
  rfl

namespace Lexeme

/-- A settled list stays so behind a construct that is no quote and opens no block comment. -/
theorem Settled.cons_of_ne {lexeme : Lexeme} {lexemes : List Lexeme} (settled : Settled lexemes)
    (quote : lexeme ≠ .other '"') (apostrophe : lexeme ≠ .other '\'')
    (block : lexeme = .other '/' → lexemes.head? ≠ some (.other '*')) :
    Settled (lexeme :: lexemes) where
  noQuote member := by
    rcases List.mem_cons.mp member with same | later
    · exact quote same.symm
    · exact settled.noQuote later
  noApostrophe member := by
    rcases List.mem_cons.mp member with same | later
    · exact apostrophe same.symm
    · exact settled.noApostrophe later
  noBlock inside := by
    rcases List.infix_cons_iff.mp inside with here | later
    · obtain ⟨same, next⟩ := List.cons_prefix_cons.mp here
      obtain ⟨more, rfl⟩ := next
      exact block same.symm rfl
    · exact settled.noBlock later

/-- A literal or comment in front leaves nothing open. -/
theorem Settled.cons_construct {lexeme : Lexeme} {lexemes : List Lexeme} (settled : Settled lexemes)
    (construct : ∀ c, lexeme ≠ .other c) : Settled (lexeme :: lexemes) :=
  settled.cons_of_ne (construct _) (construct _) fun slash => absurd slash (construct _)

/-- The shielded text begins as the text does, or with a marker. -/
theorem head?_replaceShielded (index : Nat) (text : Text) :
    (replaceShielded .generic index (ofText text)).head? = text.head? ∨
      (replaceShielded .generic index (ofText text)).head? = some '&' := by
  cases text with
  | nil => exact .inl (by rw [ofText_nil]; rfl)
  | cons c rest =>
      rw [ofText_cons, replaceShielded]
      split
      · exact .inr rfl
      · have whole := text_next_append c rest
        obtain ⟨d, more, shape⟩ := List.exists_cons_of_ne_nil (text_next_ne_nil c rest)
        rw [shape, List.cons_append, List.cons.injEq] at whole
        rw [shape, whole.1]
        exact .inl rfl

/-- A plain character is kept in the shielded text. -/
theorem replaceShielded_plain {c : Char} (plain : isPlain c = true) (rest : Text) {index : Nat} :
    replaceShielded .generic index (ofText (c :: rest)) =
      c :: replaceShielded .generic index (ofText rest) := by
  rw [ofText_cons, next_eq_other plain]
  rfl

/-- Where a line ends, it ends in the shielded text. -/
theorem replaceShielded_lineEnd (index : Nat) {after : Text}
    (ends : after = [] ∨ ∃ more, after = '\n' :: more) :
    replaceShielded .generic index (ofText after) = [] ∨
      ∃ more, replaceShielded .generic index (ofText after) = '\n' :: more := by
  rcases ends with rfl | ⟨more, rfl⟩
  · rw [ofText_nil]
    exact .inl rfl
  · exact .inr ⟨_, replaceShielded_plain rfl more⟩

/-- A source whose first construct is a single character begins with it. -/
theorem head?_of_ofText {c : Char} {text : Text} (first : (ofText text).head? = some (.other c)) :
    text.head? = some c := by
  cases text with
  | nil => simp at first
  | cons d rest =>
      rw [ofText_cons, List.head?_cons, Option.some.injEq] at first
      have whole := text_next_append d rest
      rw [first] at whole
      rw [← whole]
      rfl

/-- A quote that is read as a character is left in the shielded text. -/
theorem mem_outsideLineComments {quote : Char} (isQuote : quote = '"' ∨ quote = '\'') (rest : Text) :
    quote ∈ outsideLineComments (quote :: rest) := by
  rw [outsideLineComments_cons]
  apply List.mem_append_left
  rcases isQuote with rfl | rfl
  · rw [next_quote]
    cases literalRest? '"' rest with
    | none => exact List.mem_cons_self
    | some cut => exact List.mem_cons_self
  · rw [next_apostrophe]
    cases literalRest? '\'' rest with
    | none => exact List.mem_cons_self
    | some cut => exact List.mem_cons_self

/-- The beginning of a block comment is left in the shielded text. -/
theorem infix_outsideLineComments (rest : Text) :
    ['/', '*'] <:+: outsideLineComments ('/' :: '*' :: rest) := by
  rw [outsideLineComments_cons, next_slash_star]
  cases blockRest? rest with
  | none =>
      simp only
      rw [outsideLineComments_other (next_eq_other rfl rest)]
      exact ⟨[], _, rfl⟩
  | some cut => exact ⟨[], _, rfl⟩

/-- When the shielded text opens nothing, the text has no construct left open. Along
the scan the shielded text is scanned in step, up to the first construct that is left
open; what opens it stands in the shielded text. -/
theorem settled_of_opensNothing {text : Text} {index : Nat}
    (nothing : OpensNothing (outsideLineComments
      (replaceShielded .generic index (ofText text)))) : Settled (ofText text) := by
  fun_induction ofText text generalizing index with
  | case1 => exact ⟨by simp, by simp, by simp⟩
  | case2 c rest inductionHypothesis =>
      have cut := cut_next c rest
      generalize next c rest = result at cut nothing inductionHypothesis
      obtain ⟨lexeme, after⟩ := result
      rw [replaceShielded] at nothing
      simp only at cut nothing inductionHypothesis ⊢
      cases cut with
      | blockComment =>
          exact (inductionHypothesis nothing.of_marker).cons_construct (by simp)
      | stringLiteral =>
          exact (inductionHypothesis nothing.of_marker).cons_construct (by simp)
      | charLiteral =>
          exact (inductionHypothesis nothing.of_marker).cons_construct (by simp)
      | lineComment oneLine ends =>
          have endsToo := replaceShielded_lineEnd index ends
          rw [if_neg (by simp [isShielded]), text, List.cons_append, List.cons_append,
            outsideLineComments_cons, next_slash_slash, lineRest_append oneLine endsToo] at nothing
          exact (inductionHypothesis nothing).cons_construct (by simp)
      | other noLine =>
          rw [if_neg (by simp [isShielded]), text, List.singleton_append] at nothing
          have quote : c ≠ '"' := by
            rintro rfl
            exact nothing.noQuote (mem_outsideLineComments (.inl rfl) _)
          have apostrophe : c ≠ '\'' := by
            rintro rfl
            exact nothing.noApostrophe (mem_outsideLineComments (.inr rfl) _)
          have noBlock : c = '/' → rest.head? ≠ some '*' := by
            rintro rfl star
            obtain ⟨more, rfl⟩ := List.head?_eq_some_iff.mp star
            rw [replaceShielded_plain rfl] at nothing
            exact nothing.noBlock (infix_outsideLineComments _)
          have step : next c (replaceShielded .generic index (ofText rest)) =
              (.other c, replaceShielded .generic index (ofText rest)) := by
            by_cases slash : c = '/'
            · subst slash
              rcases head?_replaceShielded index rest with same | marker
              · exact next_slash_other (by rw [same]; exact noLine rfl)
                  (by rw [same]; exact noBlock rfl)
              · exact next_slash_other (by rw [marker]; decide) (by rw [marker]; decide)
            · exact next_eq_other (by simp [isPlain, slash, quote, apostrophe]) _
          rw [outsideLineComments_other step, ← List.singleton_append] at nothing
          have tail := inductionHypothesis nothing.of_append
          refine tail.cons_of_ne (by simpa using quote) (by simpa using apostrophe) fun slash star => ?_
          exact noBlock (Lexeme.other.inj slash) (head?_of_ofText star)

/-- The end of a settled list is settled. -/
theorem Settled.of_append {left right : List Lexeme} (settled : Settled (left ++ right)) :
    Settled right := by
  induction left with
  | nil => exact settled
  | cons lexeme left inductionHypothesis => exact inductionHypothesis settled.tail

/-- Shielding ampersands closes no construct. -/
theorem settled_of_shieldAll {lexemes : List Lexeme} (settled : Settled (shieldAll lexemes)) :
    Settled lexemes := by
  induction lexemes with
  | nil => exact settled
  | cons lexeme lexemes inductionHypothesis =>
      rw [shieldAll] at settled
      refine (inductionHypothesis settled.of_append).cons_of_ne ?_ ?_ ?_
      · rintro rfl
        exact settled.noQuote (List.mem_append_left _ List.mem_cons_self)
      · rintro rfl
        exact settled.noApostrophe (List.mem_append_left _ List.mem_cons_self)
      · rintro rfl star
        obtain ⟨more, rfl⟩ := List.head?_eq_some_iff.mp star
        refine settled.noBlock ⟨[], shieldAll more, ?_⟩
        simp [shieldAll, shielded, inserted]

end Lexeme

/-- A terminated source has no construct left open. -/
theorem Terminated.settled {source : Text} (terminated : Terminated source) :
    Lexeme.Settled (Lexeme.ofText source) := by
  apply Lexeme.settled_of_shieldAll
  rw [← Lexeme.ofText_shieldAmpersands]
  exact Lexeme.settled_of_opensNothing terminated

end HeaderBook.Source

namespace HeaderBook.Document

open Source Text

/-- Two documents that differ at most in one entry of the generic table, where they
hold the two given texts. -/
structure AgreesExceptAt (first second : Document) (entry : Nat) (inFirst inSecond : Text) :
    Prop where
  text : first.text = second.text
  docComments : first.docComments = second.docComments
  blocks : first.blocks = second.blocks
  classes : first.classes = second.classes
  functions : first.functions = second.functions
  size : first.generic.length = second.generic.length
  entryFirst : first.generic[entry]? = some inFirst
  entrySecond : second.generic[entry]? = some inSecond
  elsewhere : ∀ index, index ≠ entry → first.generic[index]? = second.generic[index]?

/-- The literals of a source as they are captured. -/
def capturedLiterals (source : Text) : List Text :=
  ((Lexeme.ofText source).filter Lexeme.isShielded).map fun lexeme => shieldAmpersands lexeme.text

/-- What is built from a shielded text and the literals captured from it. -/
def ofShielded (path : CodeText) (shielded : Text) (literals : List Text) :
    Except NumberTooLong Document :=
  let captured := captureCommentRuns shielded { kind := .docComment }
  let folded := foldBlocks captured.1 { kind := .block }
  (Declaration.ofFolded folded.1).map fun declarations =>
    { path
      text := folded.1
      literals
      docComments := captured.2.fragments
      blocks := folded.2.fragments
      declarations }

/-- The source enters a document through its shielded text and its captured literals only. -/
theorem build_eq_ofShielded (path : CodeText) (source : Text) :
    build path source = ofShielded path (shieldedText source) (capturedLiterals source) := by
  have literals : (shield source).2.fragments.drop 1 = capturedLiterals source := by
    rw [capturedLiterals, ← Lexeme.filter_isShielded_shieldAll, ← Lexeme.ofText_shieldAmpersands]
    rfl
  unfold build ofShielded shieldedText
  simp only [literals]
  generalize (shield source).1 = shielded
  generalize captureCommentRuns shielded { kind := .docComment } = captured
  generalize foldBlocks captured.1 { kind := .block } = folded
  cases Declaration.ofFolded folded.1 with
  | error failure => rfl
  | ok declarations => rfl

/-- The literals do not take part in building the rest. -/
theorem ofShielded_eq_map (path : CodeText) (shielded : Text) (literals others : List Text) :
    ofShielded path shielded others =
      (ofShielded path shielded literals).map fun document => { document with literals := others } := by
  simp only [ofShielded]
  generalize captureCommentRuns shielded { kind := .docComment } = captured
  generalize foldBlocks captured.1 { kind := .block } = folded
  cases Declaration.ofFolded folded.1 with
  | error failure => rfl
  | ok declarations => rfl

/-- The literals of a document are the ones captured from its source. -/
theorem literals_of_build {path : CodeText} {source : Text} {document : Document}
    (built : build path source = .ok document) : document.literals = capturedLiterals source := by
  rw [build_eq_ofShielded, ofShielded_eq_map path _ [] _] at built
  cases result : ofShielded path (shieldedText source) [] with
  | error failure =>
      rw [result] at built
      exact absurd built nofun
  | ok other =>
      rw [result] at built
      rw [← Except.ok.inj built]

section

variable {source fragment : Text} {before after : List Lexeme} {old : Lexeme}
  (terminated : Terminated source)
  (scan : Lexeme.ofText source = before ++ old :: after) (captured : old.isShielded = true)
  (complete : Lexeme.ofText fragment = [old.mapText fun _ => fragment])

/-- A source with one of its captured lexemes replaced by another text. -/
def replaced (before after : List Lexeme) (fragment : Text) : Text :=
  before.flatMap Lexeme.text ++ fragment ++ after.flatMap Lexeme.text

include terminated scan captured complete

/-- Putting one captured construct in place of another leaves the shielded text as it is. -/
theorem shieldedText_replaced :
    shieldedText (replaced before after fragment) = shieldedText source := by
  have lexemes := Lexeme.ofText_replace terminated.settled scan captured complete
  have opens := Lexeme.head?_of_mem_ofText (by rw [scan]; simp) captured
  have opensNew : (old.mapText fun _ => fragment).text.head? =
      some (old.mapText fun _ => fragment).opening :=
    Lexeme.head?_of_mem_ofText (by rw [complete]; simp) (by simpa using captured)
  rw [shieldedText_eq, shieldedText_eq, replaced, lexemes, scan]
  exact Lexeme.replaceShielded_shieldAll .generic 1 captured opens (by simpa using captured) opensNew
    before after

/-- The captured literals differ in the one that was replaced. -/
theorem capturedLiterals_replaced :
    (capturedLiterals source)[(before.filter Lexeme.isShielded).length]? =
        some (shieldAmpersands old.text) ∧
      capturedLiterals (replaced before after fragment) =
        (capturedLiterals source).set (before.filter Lexeme.isShielded).length
          (shieldAmpersands fragment) := by
  have lexemes := Lexeme.ofText_replace terminated.settled scan captured complete
  have capturedNew : (old.mapText fun _ => fragment).isShielded = true := by simpa using captured
  have literals : capturedLiterals source =
      (before.filter Lexeme.isShielded).map (fun lexeme => shieldAmpersands lexeme.text) ++
        shieldAmpersands old.text ::
          (after.filter Lexeme.isShielded).map fun lexeme => shieldAmpersands lexeme.text := by
    rw [capturedLiterals, scan, List.filter_append, List.filter_cons_of_pos captured,
      List.map_append, List.map_cons]
  constructor
  · simp [literals]
  · rw [literals, capturedLiterals, replaced, lexemes, List.filter_append,
      List.filter_cons_of_pos capturedNew, List.map_append, List.map_cons,
      Lexeme.text_mapText captured]
    simp

/-- The two documents share everything but the replaced literal. -/
theorem agreesExceptAt_replaced {path : CodeText} {document : Document}
    (built : build path source = .ok document) :
    AgreesExceptAt
      { document with literals := capturedLiterals (replaced before after fragment) } document
      (1 + (before.filter Lexeme.isShielded).length) (shieldAmpersands fragment)
      (shieldAmpersands old.text) := by
  obtain ⟨entry, changed⟩ := capturedLiterals_replaced terminated scan captured complete
  rw [← literals_of_build built] at entry changed
  have inside := (List.getElem?_eq_some_iff.mp entry).1
  have table : ({ document with literals := capturedLiterals (replaced before after fragment) } :
      Document).generic = document.generic.set ((before.filter Lexeme.isShielded).length + 1)
        (shieldAmpersands fragment) := by
    rw [generic, generic, List.set_cons_succ, changed]
  rw [Nat.add_comm]
  refine ⟨rfl, rfl, rfl, rfl, rfl, ?_, ?_, ?_, ?_⟩
  · rw [table, List.length_set]
  · rw [table]
    exact List.getElem?_set_self (Nat.succ_lt_succ inside)
  · rw [generic, List.getElem?_cons_succ, entry]
  · intro index different
    rw [table, List.getElem?_set_ne different.symm]

end

/-- Replacing one captured literal or block comment of a terminated source by another
complete one of the same kind changes the document in that entry of the generic table
only, and does not change whether there is a document. -/
theorem build_replaced (path : CodeText) (source fragment : Text) (before after : List Lexeme)
    (old : Lexeme) (terminated : Terminated source)
    (scan : Lexeme.ofText source = before ++ old :: after) (captured : old.isShielded = true)
    (complete : Lexeme.ofText fragment = [old.mapText fun _ => fragment]) :
    (source.length < numberLimit → ∃ document, build path source = .ok document) ∧
    (∀ failure, build path (replaced before after fragment) = .error failure ↔
      build path source = .error failure) ∧
    ∀ document, build path source = .ok document →
      ∃ other, build path (replaced before after fragment) = .ok other ∧
        AgreesExceptAt other document (1 + (before.filter Lexeme.isShielded).length)
          (shieldAmpersands fragment) (shieldAmpersands old.text) := by
  have shielded := shieldedText_replaced terminated scan captured complete
  have same : build path (replaced before after fragment) =
      (build path source).map fun document =>
        { document with literals := capturedLiterals (replaced before after fragment) } := by
    rw [build_eq_ofShielded, build_eq_ofShielded, shielded]
    exact ofShielded_eq_map path _ _ _
  refine ⟨fun short => ⟨_, build_eq_ok path short⟩, fun failure => ?_, fun document built => ?_⟩
  · rw [same]
    cases build path source with
    | error other => exact Iff.rfl
    | ok document => exact ⟨nofun, nofun⟩
  · refine ⟨_, by rw [same, built]; rfl, ?_⟩
    exact agreesExceptAt_replaced terminated scan captured complete built

/-- A literal, then an apostrophe in a line comment. -/
def commentedLiteral : Text :=
  ['"', 'a', '"', ';', '/', '/', '\'']

/-- A literal that holds an apostrophe, the beginning of a block comment, an open block,
a terminator and a marker. -/
def deceptiveLiteral : Text :=
  ['"', '\'', '/', '*', '\x7b', ';', '&', '1', '.', '"']

/-- The constructs of the sample source: a literal, a semicolon and a line comment. -/
theorem lexemes_commentedLiteral : Lexeme.ofText commentedLiteral =
    [.stringLiteral ['"', 'a', '"'], .other ';', .lineComment ['/', '/', '\'']] := by
  have string : Lexeme.next '"' ['a', '"', ';', '/', '/', '\''] =
      (.stringLiteral ['"', 'a', '"'], [';', '/', '/', '\'']) := by
    decide
  have line : Lexeme.next '/' ['/', '\''] = (.lineComment ['/', '/', '\''], []) := by
    decide
  rw [commentedLiteral, Lexeme.ofText_cons, string, Lexeme.ofText_cons,
    Lexeme.next_eq_other rfl, Lexeme.ofText_cons, line, Lexeme.ofText_nil]

/-- The apostrophe in the line comment of the sample source opens nothing. -/
theorem terminated_commentedLiteral : Terminated commentedLiteral := by
  have shielded : shieldedText commentedLiteral =
      ['&', '1', '.', ';', '/', '/', '\''] := by
    have one : decimal 1 = ['1'] := by
      rw [decimal, if_pos (by decide)]
      rfl
    rw [shieldedText_eq, lexemes_commentedLiteral]
    simp [Lexeme.shieldAll, Lexeme.shielded, Lexeme.mapText, inserted,
      Lexeme.replaceShielded, Lexeme.isShielded, Lexeme.text, shieldAmpersands_cons_of_ne,
      MarkerKind.format, MarkerKind.opening, MarkerKind.closing, one]
  have line : Lexeme.next '/' ['/', '\''] = (.lineComment ['/', '/', '\''], []) := by
    decide
  have outside : outsideLineComments ['&', '1', '.', ';', '/', '/', '\''] =
      ['&', '1', '.', ';'] := by
    rw [outsideLineComments_other (Lexeme.next_eq_other rfl _),
      outsideLineComments_other (Lexeme.next_eq_other rfl _),
      outsideLineComments_other (Lexeme.next_eq_other rfl _),
      outsideLineComments_other (Lexeme.next_eq_other rfl _),
      outsideLineComments_cons, line, outsideLineComments, Lexeme.ofText_nil]
    rfl
  rw [Terminated, shielded, outside]
  exact ⟨by decide, by decide, by decide⟩

/-- A literal full of text that would open something takes the place of a plain one. -/
theorem build_replaced_deceptiveLiteral :
    Terminated commentedLiteral ∧ ∃ document other, build [] commentedLiteral = .ok document ∧
      build [] (deceptiveLiteral ++ [';', '/', '/', '\'']) = .ok other ∧
      AgreesExceptAt other document 1 (shieldAmpersands deceptiveLiteral) ['"', 'a', '"'] := by
  have complete : Lexeme.ofText deceptiveLiteral = [.stringLiteral deceptiveLiteral] := by
    have string : Lexeme.next '"' ['\'', '/', '*', '\x7b', ';', '&', '1', '.', '"'] =
        (.stringLiteral deceptiveLiteral, []) := by
      decide
    rw [deceptiveLiteral, Lexeme.ofText_cons, string, Lexeme.ofText_nil]
    rfl
  have short : commentedLiteral.length < numberLimit := Text.lt_numberLimit_of_le (by decide)
  obtain ⟨succeeds, _, agrees⟩ := build_replaced [] commentedLiteral deceptiveLiteral []
    [.other ';', .lineComment ['/', '/', '\'']] (.stringLiteral ['"', 'a', '"'])
    terminated_commentedLiteral lexemes_commentedLiteral rfl complete
  obtain ⟨document, built⟩ := succeeds short
  obtain ⟨other, builtOther, same⟩ := agrees document built
  have plain : shieldAmpersands ['"', 'a', '"'] = ['"', 'a', '"'] := by
    simp [shieldAmpersands_cons_of_ne]
  exact ⟨terminated_commentedLiteral, document, other, built, builtOther, plain ▸ same⟩

end HeaderBook.Document
