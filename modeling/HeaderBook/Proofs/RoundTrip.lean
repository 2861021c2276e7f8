import HeaderBook.Proofs.Restoration

/-!
# Restoring a document gives the source back

The items of the folded text cover the whole source, and each is restored to what
it covers. A source comes back up to `collapseZeros` when its marker-shaped text
lies inside literals and comments, and unchanged exactly when no marker-shaped
text has the number zero. Unterminated literals, surplus braces and text that
looks like a marker of another kind make no difference.
-/

namespace HeaderBook.Source

open Text (digitsValue digitLimit numberLimit readNumber)

/-! ### Where marker-shaped text stands -/

/-- The characters from `start` to `stop` lie inside one literal or comment that
the scan recognises. By `Lexeme.ofText_shieldAmpersands` it recognises the same
constructs before and after ampersands are shielded. -/
def InConstruct (source : Text) (start stop : Nat) : Prop :=
  ∃ left lexeme right, Lexeme.ofText source = left ++ lexeme :: right ∧
    (∀ c, lexeme ≠ .other c) ∧ (left.flatMap Lexeme.text).length ≤ start ∧
    stop ≤ (left.flatMap Lexeme.text).length + lexeme.text.length

/-- A marker behind a comment line is a marker of the tokens after the line. -/
theorem Token.split_of_joinRun {line digits : Text} {tokens left right : List Token}
    (split : joinRun line tokens = left ++ .marker digits :: right) :
    ∃ left', tokens = left' ++ .marker digits :: right ∧
      left.flatMap text = line ++ left'.flatMap text := by
  unfold joinRun at split
  split at split
  next lines rest =>
    cases left with
    | nil => simp at split
    | cons first left =>
        obtain ⟨rfl, tail⟩ := List.cons.inj split
        exact ⟨.comment lines :: left, congrArg _ tail, by simp [text]⟩
  next rest _ =>
    cases left with
    | nil => simp at split
    | cons first left =>
        obtain ⟨rfl, tail⟩ := List.cons.inj split
        exact ⟨left, tail, by simp [text]⟩

/-- Marker-shaped text outside literals and comments begins with a lexeme that is
a single ampersand. -/
theorem Token.exists_lexemes_of_marker {source digits : Text} {left right : List Token}
    (split : ofText source = left ++ .marker digits :: right) :
    ∃ before after, Lexeme.ofText source = before ++ .other '&' :: after ∧
      before.flatMap Lexeme.text = left.flatMap text := by
  induction source using Token.induction generalizing left with
  | nil => simp at split
  | line body after oneLine ends inductionHypothesis =>
      rw [ofText_line oneLine ends] at split
      obtain ⟨left', tail, textEq⟩ := split_of_joinRun split
      obtain ⟨before, rest, lexemes, same⟩ := inductionHypothesis tail
      refine ⟨.lineComment ('/' :: '/' :: body) :: (lineEnd after).1.map .other ++ before, rest,
        ?_, ?_⟩
      · rw [ofText_line_lexemes oneLine ends, lexemes]
        simp
      · rw [textEq, ← same, List.flatMap_append, List.flatMap_cons,
          Lexeme.flatMap_text_others]
        simp [Lexeme.text]
  | marker digits' after valid inductionHypothesis =>
      rw [ofText_marker valid] at split
      cases left with
      | nil =>
          refine ⟨[], (digits' ++ ['.']).map .other ++ Lexeme.ofText after, ?_, rfl⟩
          rw [Lexeme.ofText_marker valid]
          simp
      | cons first left =>
          obtain ⟨rfl, tail⟩ := List.cons.inj split
          obtain ⟨before, rest, lexemes, same⟩ := inductionHypothesis tail
          refine ⟨('&' :: (digits' ++ ['.'])).map .other ++ before, rest, ?_, ?_⟩
          · rw [Lexeme.ofText_marker valid, lexemes, List.append_assoc]
          · rw [List.flatMap_append, Lexeme.flatMap_text_others, same, List.flatMap_cons]
            simp [text, Marker.text, MarkerKind.opening, MarkerKind.closing]
  | char c rest step _ closed inductionHypothesis =>
      rw [ofText_char step closed] at split
      cases left with
      | nil => simp at split
      | cons first left =>
          obtain ⟨rfl, tail⟩ := List.cons.inj split
          obtain ⟨before, after, lexemes, same⟩ := inductionHypothesis tail
          refine ⟨.other c :: before, after, ?_, ?_⟩
          · rw [Lexeme.ofText_cons, step, lexemes, List.cons_append]
          · rw [List.flatMap_cons, List.flatMap_cons, same]
            rfl
  | literal c rest lexeme after step captured inductionHypothesis =>
      rw [ofText_literal step captured] at split
      cases left with
      | nil => simp at split
      | cons first left =>
          obtain ⟨rfl, tail⟩ := List.cons.inj split
          obtain ⟨before, after', lexemes, same⟩ := inductionHypothesis tail
          refine ⟨lexeme :: before, after', ?_, ?_⟩
          · rw [Lexeme.ofText_cons, step, lexemes, List.cons_append]
          · rw [List.flatMap_cons, List.flatMap_cons, same]
            rfl

/-- A single ampersand lies inside no literal or comment. -/
theorem not_inConstruct_of_ampersand {source : Text} {before after : List Lexeme}
    (lexemes : Lexeme.ofText source = before ++ .other '&' :: after) {stop : Nat}
    (nonempty : (before.flatMap Lexeme.text).length < stop) :
    ¬ InConstruct source (before.flatMap Lexeme.text).length stop := by
  rintro ⟨left, lexeme, right, split, construct, begins, ends⟩
  rw [lexemes] at split
  rcases List.append_eq_append_iff.mp split with ⟨overlap, rfl, tail⟩ | ⟨overlap, rfl, tail⟩
  · cases overlap with
    | nil => exact construct '&' (List.cons.inj tail).1.symm
    | cons first overlap =>
        rw [← (List.cons.inj tail).1] at begins
        simp only [List.flatMap_append, List.flatMap_cons, Lexeme.text, List.length_append,
          List.length_singleton] at begins
        omega
  · cases overlap with
    | nil => exact construct '&' (List.cons.inj tail).1
    | cons first overlap =>
        rw [← (List.cons.inj tail).1] at nonempty
        simp only [List.flatMap_append, List.flatMap_cons, List.length_append] at nonempty ends
        omega

/-- Where every marker-shaped text lies inside a literal or comment, none is a
token of its own. -/
theorem marker_not_mem_ofText {source : Text}
    (inside : ∀ before digits, MarkerShaped source before digits →
      InConstruct source before.length (before.length + digits.length + 2))
    (digits : Text) : .marker digits ∉ Token.ofText source := by
  intro member
  obtain ⟨left, right, split⟩ := List.append_of_mem member
  obtain ⟨before, after, lexemes, same⟩ := Token.exists_lexemes_of_marker split
  have construct := inside _ digits (Token.markerShaped_of_split split)
  rw [← same] at construct
  exact not_inConstruct_of_ampersand lexemes (by omega) construct

/-! ### The round trip -/

/-- Building succeeds, and restoring the folded text gives the source with the
marker-shaped text of number zero collapsed. -/
theorem restore_text_build (path : CodeText) (source : Text) (short : source.length < numberLimit)
    (enclosed : ∀ before digits, MarkerShaped source before digits →
      InConstruct source before.length (before.length + digits.length + 2) ∧
        digits.length ≤ digitLimit) :
    ∃ document, Document.build path source = .ok document ∧
      document.restore document.text = .ok (collapseZeros source) ∧
      (document.restore document.text = .ok source ↔
        ∀ before digits, MarkerShaped source before digits → digitsValue digits ≠ 0) := by
  have unmarked := marker_not_mem_ofText fun before digits shaped =>
    (enclosed before digits shaped).1
  have readable : Readable source := fun before digits shaped => (enclosed before digits shaped).2
  have restored : (Document.ofSource path source).restore (Document.ofSource path source).text =
      .ok (collapseZeros source) := by
    rw [← Token.flatMap_restored_ofText, ← covered_finish]
    exact Document.restore_items short readable unmarked fun _ member => member
  refine ⟨Document.ofSource path source, Document.build_eq_ok path short, restored, ?_⟩
  rw [restored, Except.ok.injEq]
  exact collapseZeros_eq_self_iff

/-- A literal that holds the marker of an ampersand, an open block and a bare
ampersand. -/
def quotedMarker : Text :=
  ['"', '&', '0', '.', '"', ';', '\x7b', '&']

/-- The constructs of the sample source: a literal, and an ampersand in an open block. -/
theorem lexemes_quotedMarker : Lexeme.ofText quotedMarker =
    [.stringLiteral ['"', '&', '0', '.', '"'], .other ';', .other '\x7b', .other '&'] := by
  have string : Lexeme.next '"' ['&', '0', '.', '"', ';', '\x7b', '&'] =
      (.stringLiteral ['"', '&', '0', '.', '"'], [';', '\x7b', '&']) := by
    decide
  rw [quotedMarker, Lexeme.ofText_cons, string]
  simp [Lexeme.ofText_cons, Lexeme.next_eq_other, Lexeme.isPlain]

/-- The only marker shape of the sample source stands in its literal. -/
theorem markerShaped_quotedMarker {before digits : Text}
    (shaped : MarkerShaped quotedMarker before digits) : before = ['"'] ∧ digits = ['0'] := by
  have quote : '&' ∉ ['"'] := by decide
  have middle : '&' ∉ ['"', ';', '\x7b'] := by decide
  obtain ⟨before, rfl, inner⟩ := MarkerShaped.of_append quote shaped
  rcases inner.of_marker HeaderBook.Marker.valid_zero with ⟨rfl, rfl⟩ | ⟨_, later⟩
  · exact ⟨rfl, rfl⟩
  · obtain ⟨before, rfl, last⟩ := MarkerShaped.of_append middle later
    rcases last.of_ampersand with ⟨_, after, split⟩ | ⟨_, _, rest⟩
    · simp at split
    · exact absurd rest (Unmarked.of_not_mem List.not_mem_nil _ _)

/-- A marker shape in a literal is restored as an ampersand. -/
theorem restore_text_build_quotedMarker :
    (∀ before digits, MarkerShaped quotedMarker before digits →
      InConstruct quotedMarker before.length (before.length + digits.length + 2) ∧
        digits.length ≤ digitLimit) ∧
    ∃ document, Document.build [] quotedMarker = .ok document ∧
      document.restore document.text = .ok ['"', '&', '"', ';', '\x7b', '&'] := by
  have enclosed : ∀ before digits, MarkerShaped quotedMarker before digits →
      InConstruct quotedMarker before.length (before.length + digits.length + 2) ∧
        digits.length ≤ digitLimit := by
    intro before digits shaped
    obtain ⟨rfl, rfl⟩ := markerShaped_quotedMarker shaped
    exact ⟨⟨[], _, _, lexemes_quotedMarker, nofun, by decide, by decide⟩, by decide⟩
  have short : quotedMarker.length < numberLimit := Text.lt_numberLimit_of_le (by decide)
  have collapsed : collapseZeros quotedMarker = ['"', '&', '"', ';', '\x7b', '&'] := by
    have marker := collapseZeros_marker HeaderBook.Marker.valid_zero ['"', ';', '\x7b', '&']
    rw [if_pos (by decide)] at marker
    rw [quotedMarker, collapseZeros_plain (by decide)]
    rw [show ['&', '0', '.', '"', ';', '\x7b', '&'] =
      '&' :: (['0'] ++ '.' :: ['"', ';', '\x7b', '&']) from rfl, marker]
    have bare : collapseZeros ['&'] = ['&'] := by
      rw [collapseZeros_bare rfl, collapseZeros_nil]
    simp [collapseZeros_plain, bare]
  obtain ⟨document, built, restored, _⟩ := restore_text_build [] quotedMarker short enclosed
  exact ⟨enclosed, document, built, restored.trans (congrArg _ collapsed)⟩

end HeaderBook.Source
