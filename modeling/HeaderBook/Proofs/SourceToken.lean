import HeaderBook.Source.CommentRun
import HeaderBook.Proofs.LexemeScan

/-!
# The tokens of a source

The passes before folding replace literals, block comments and runs of comment
lines, and keep the other characters. `Token.ofText` reads these units off the
source itself, in one scan, and the two passes are shown to agree with it: the
text they leave is that of the tokens, each fragment replaced by the marker with
the next index of its kind.

A run takes in the line break of each of its lines and the indentation after it.
-/

namespace HeaderBook.Source

open Text (isDigit)

/-- A unit of a source as the passes treat it. -/
inductive Token where
  /-- A character outside literals and comments. -/
  | char (c : Char)
  /-- An ampersand outside literals and comments, with the digits and the full
  stop after it: text that looks like a generic marker. -/
  | marker (digits : Text)
  /-- A literal or a block comment. -/
  | literal (text : Text)
  /-- A run of comment lines. -/
  | comment (lines : List Text)
  deriving DecidableEq, Repr

namespace Token

/-- The characters of a token. -/
def text : Token → Text
  | .char c => [c]
  | .marker digits => (⟨.generic, digits⟩ : Marker).text
  | .literal text => text
  | .comment lines => lines.flatten

/-- What a comment line takes from the text after it, and what it leaves: the line
break and the indentation of the next line belong to it. -/
def lineEnd : Text → Text × Text
  | [] => ([], [])
  | newline :: more =>
    (newline :: more.takeWhile CommentRun.isIndent, more.dropWhile CommentRun.isIndent)

/-- The end of a comment line and what it leaves are the text after it. -/
theorem append_lineEnd (after : Text) : (lineEnd after).1 ++ (lineEnd after).2 = after := by
  cases after with
  | nil => rfl
  | cons newline more => simp [lineEnd]

/-- A comment line before tokens: it joins the run that follows it directly. -/
def joinRun (line : Text) : List Token → List Token
  | .comment lines :: rest => .comment (line :: lines) :: rest
  | rest => .comment [line] :: rest

/-- What the end of a comment line leaves is no longer than the text. -/
theorem length_lineEnd_le (after : Text) : (lineEnd after).2.length ≤ after.length := by
  have lengths := congrArg List.length (append_lineEnd after)
  rw [List.length_append] at lengths
  omega

/-- The tokens of a source, left to right. -/
def ofText : Text → List Token
  | [] => []
  | c :: rest =>
    match (Lexeme.next c rest).1 with
    | .lineComment line =>
      joinRun (line ++ (lineEnd (Lexeme.next c rest).2).1)
        (ofText (lineEnd (Lexeme.next c rest).2).2)
    | .other _ =>
      if c = '&' && opensGeneric rest then
        .marker (rest.takeWhile isDigit) :: ofText ((rest.dropWhile isDigit).drop 1)
      else
        .char c :: ofText rest
    | lexeme => .literal lexeme.text :: ofText (Lexeme.next c rest).2
termination_by text => text.length
decreasing_by
  · have := Lexeme.length_next_le c rest
    have := length_lineEnd_le (Lexeme.next c rest).2
    simp only [List.length_cons]
    omega
  · have := (List.dropWhile_sublist (l := rest) isDigit).length_le
    simp only [List.length_cons, List.length_drop]
    omega
  · simp
  · have := Lexeme.length_next_le c rest
    simp only [List.length_cons]
    omega

@[simp] theorem ofText_nil : ofText [] = [] := by
  rw [ofText]

/-- A line comment begins or continues a run. -/
theorem ofText_line {body after : Text} (oneLine : '\n' ∉ body)
    (ends : after = [] ∨ ∃ more, after = '\n' :: more) :
    ofText ('/' :: '/' :: (body ++ after)) =
      joinRun ('/' :: '/' :: (body ++ (lineEnd after).1)) (ofText (lineEnd after).2) := by
  have line := Lexeme.lineRest_append oneLine ends
  rw [ofText, Lexeme.next_slash_slash, line]
  rfl

/-- Text that looks like a generic marker is one token. -/
theorem ofText_marker {digits : Text} (valid : (⟨.generic, digits⟩ : Marker).Valid)
    (after : Text) : ofText ('&' :: (digits ++ '.' :: after)) = .marker digits :: ofText after := by
  have opens := opensGeneric_iff.mpr ⟨digits, after, valid, rfl⟩
  rw [ofText, Lexeme.next_eq_other (by decide)]
  simp [opens, takeWhile_isDigit_append valid.digits (c := '.') (by decide),
    dropWhile_isDigit_append valid.digits (c := '.') (by decide)]

/-- A character that begins no construct and no marker is a token. -/
theorem ofText_char {c : Char} {rest : Text} (step : Lexeme.next c rest = (.other c, rest))
    (closed : c = '&' → opensGeneric rest = false) :
    ofText (c :: rest) = .char c :: ofText rest := by
  rw [ofText, step]
  by_cases ampersand : c = '&'
  · simp [closed ampersand]
  · simp [ampersand]

/-- A captured construct is a literal token. -/
theorem ofText_literal {c : Char} {rest after : Text} {lexeme : Lexeme}
    (step : Lexeme.next c rest = (lexeme, after)) (captured : lexeme.isShielded = true) :
    ofText (c :: rest) = .literal lexeme.text :: ofText after := by
  rw [ofText, step]
  cases lexeme <;> simp_all [Lexeme.isShielded]

/-- Induction along the tokens of a source. -/
@[elab_as_elim]
theorem induction {motive : Text → Prop} (nil : motive [])
    (line : ∀ body after, '\n' ∉ body → (after = [] ∨ ∃ more, after = '\n' :: more) →
      motive (lineEnd after).2 → motive ('/' :: '/' :: (body ++ after)))
    (marker : ∀ digits after, (⟨.generic, digits⟩ : Marker).Valid → motive after →
      motive ('&' :: (digits ++ '.' :: after)))
    (char : ∀ c rest, Lexeme.next c rest = (.other c, rest) → (c = '/' → rest.head? ≠ some '/') →
      (c = '&' → opensGeneric rest = false) → motive rest → motive (c :: rest))
    (literal : ∀ c rest lexeme after, Lexeme.next c rest = (lexeme, after) →
      lexeme.isShielded = true → motive after → motive (c :: rest))
    (source : Text) : motive source := by
  induction length : source.length using Nat.strongRecOn generalizing source with
  | _ size inductionHypothesis =>
      cases source with
      | nil => exact nil
      | cons c rest =>
          have shorter : ∀ text : Text, text.length ≤ rest.length → motive text := by
            intro text bound
            exact inductionHypothesis text.length (by rw [← length]; simp; omega) text rfl
          have cut := Lexeme.cut_next c rest
          have bound := Lexeme.length_next_le c rest
          generalize step : Lexeme.next c rest = result at cut bound
          obtain ⟨lexeme, after⟩ := result
          cases cut with
          | @lineComment body _ oneLine ends =>
              apply line body after oneLine ends
              exact shorter _ (Nat.le_trans (length_lineEnd_le after) bound)
          | blockComment => exact literal _ _ _ _ step rfl (shorter _ bound)
          | stringLiteral => exact literal _ _ _ _ step rfl (shorter _ bound)
          | charLiteral => exact literal _ _ _ _ step rfl (shorter _ bound)
          | other noLine =>
              by_cases ampersand : c = '&' ∧ opensGeneric after = true
              · obtain ⟨rfl, opens⟩ := ampersand
                obtain ⟨digits, later, valid, rfl⟩ := opensGeneric_iff.mp opens
                exact marker digits later valid (shorter _ (by simp; omega))
              · refine char c after step noLine (fun equal => ?_) (shorter _ bound)
                simpa [equal] using ampersand

/-- Joining a comment line to a run keeps the text. -/
theorem flatMap_text_joinRun (line : Text) (tokens : List Token) :
    (joinRun line tokens).flatMap text = line ++ tokens.flatMap text := by
  unfold joinRun
  split
  · simp [text]
  · simp [text]

/-- The tokens of a source are written as the source. -/
theorem flatMap_text_ofText (source : Text) : (ofText source).flatMap text = source := by
  induction source using Token.induction with
  | nil => simp
  | line body after oneLine ends inductionHypothesis =>
      rw [ofText_line oneLine ends, flatMap_text_joinRun, inductionHypothesis]
      simp [append_lineEnd]
  | marker digits after valid inductionHypothesis =>
      rw [ofText_marker valid, List.flatMap_cons, inductionHypothesis]
      simp [text, Marker.text, MarkerKind.opening, MarkerKind.closing]
  | char c rest step _ closed inductionHypothesis =>
      rw [ofText_char step closed, List.flatMap_cons, inductionHypothesis]
      rfl
  | literal c rest lexeme after step captured inductionHypothesis =>
      have whole := Lexeme.text_next_append c rest
      rw [step] at whole
      rw [ofText_literal step captured, List.flatMap_cons, inductionHypothesis]
      exact whole

/-! ### Tokens of the shielded source -/

/-- The token of the shielded source in place of a token of the source. -/
def shield : Token → Token
  | .char c => if c = '&' then .marker ['0'] else .char c
  | .marker digits => .marker digits
  | .literal text => .literal (shieldAmpersands text)
  | .comment lines => .comment (lines.map shieldAmpersands)

/-- Shielding commutes with joining a comment line to a run. -/
theorem map_shield_joinRun (line : Text) (tokens : List Token) :
    (joinRun line tokens).map shield = joinRun (shieldAmpersands line) (tokens.map shield) := by
  cases tokens with
  | nil => rfl
  | cons token tokens =>
      cases token with
      | char c => by_cases ampersand : c = '&' <;> simp [joinRun, shield, ampersand]
      | marker digits => rfl
      | literal text => rfl
      | comment lines => rfl

/-- Shielding leaves indentation as it is. -/
theorem takeWhile_isIndent_shieldAmpersands (text : Text) :
    (shieldAmpersands text).takeWhile CommentRun.isIndent = text.takeWhile CommentRun.isIndent ∧
      (shieldAmpersands text).dropWhile CommentRun.isIndent =
        shieldAmpersands (text.dropWhile CommentRun.isIndent) := by
  induction text with
  | nil => exact ⟨rfl, rfl⟩
  | cons c rest inductionHypothesis =>
      by_cases indent : CommentRun.isIndent c = true
      · have plain : c ≠ '&' := by
          rintro rfl
          exact absurd indent (by decide)
        rw [shieldAmpersands_cons_of_ne plain]
        simpa [indent] using inductionHypothesis
      · rw [List.takeWhile_cons_of_neg indent, List.dropWhile_cons_of_neg indent,
          shieldAmpersands_cons, List.takeWhile_cons_of_neg indent,
          List.dropWhile_cons_of_neg indent]
        exact ⟨rfl, rfl⟩

/-- Shielding leaves the end of a comment line as it is. -/
theorem lineEnd_shieldAmpersands {after : Text} (ends : after = [] ∨ ∃ more, after = '\n' :: more) :
    lineEnd (shieldAmpersands after) = ((lineEnd after).1, shieldAmpersands (lineEnd after).2) := by
  rcases ends with rfl | ⟨more, rfl⟩
  · rfl
  · obtain ⟨taken, dropped⟩ := takeWhile_isIndent_shieldAmpersands more
    rw [shieldAmpersands_cons_of_ne (by decide), lineEnd, taken, dropped]
    rfl

/-- The end of a comment line is a line break and indentation. -/
theorem ampersand_not_mem_lineEnd {after : Text} (ends : after = [] ∨ ∃ more, after = '\n' :: more) :
    '&' ∉ (lineEnd after).1 := by
  rcases ends with rfl | ⟨more, rfl⟩
  · exact List.not_mem_nil
  · have indent := List.all_eq_true.mp (List.all_takeWhile (p := CommentRun.isIndent) (l := more))
    rw [lineEnd, List.mem_cons, not_or]
    refine ⟨by decide, fun member => ?_⟩
    exact absurd (indent _ member) (by decide)

/-- The end of a comment line is kept. -/
theorem shieldAmpersands_append_lineEnd (line : Text) {after : Text}
    (ends : after = [] ∨ ∃ more, after = '\n' :: more) :
    shieldAmpersands (line ++ (lineEnd after).1) = shieldAmpersands line ++ (lineEnd after).1 := by
  have free := ampersand_not_mem_lineEnd ends
  have boundary : Boundary line (lineEnd after).1 := by
    rcases ends with rfl | ⟨more, rfl⟩
    · exact .of_nil line
    · exact .of_head (by decide) (by decide) line _
  rw [shieldAmpersands_append boundary, shieldAmpersands_of_not_mem free]

/-- No marker-shaped text reaches out of a comment line. -/
theorem boundary_lineEnd (line : Text) {after : Text}
    (ends : after = [] ∨ ∃ more, after = '\n' :: more) :
    Boundary (line ++ (lineEnd after).1) (lineEnd after).2 := by
  have free := ampersand_not_mem_lineEnd ends
  rcases ends with rfl | ⟨more, rfl⟩
  · exact .of_nil _
  · exact .of_inner (by decide) (by decide) (fun member => free (List.mem_cons_of_mem _ member)) line _

/-- A shielded line comment is a line comment with its body shielded. -/
theorem lineComment_shieldAmpersands {body after : Text} (oneLine : '\n' ∉ body)
    (ends : after = [] ∨ ∃ more, after = '\n' :: more) :
    shieldAmpersands ('/' :: '/' :: (body ++ after)) =
        '/' :: '/' :: (shieldAmpersands body ++ shieldAmpersands after) ∧
      '\n' ∉ shieldAmpersands body ∧
      (shieldAmpersands after = [] ∨ ∃ more, shieldAmpersands after = '\n' :: more) := by
  have boundary : Boundary body after := by
    rcases ends with rfl | ⟨more, rfl⟩
    · exact .of_nil body
    · exact .of_head (by decide) (by decide) body more
  refine ⟨?_, ?_, ?_⟩
  · rw [shieldAmpersands_cons_of_ne (by decide), shieldAmpersands_cons_of_ne (by decide),
      shieldAmpersands_append boundary]
  · intro member
    exact oneLine (mem_of_mem_shieldAmpersands member (by decide) (by decide))
  · rcases ends with rfl | ⟨more, rfl⟩
    · exact .inl rfl
    · exact .inr ⟨_, shieldAmpersands_cons_of_ne (by decide) more⟩

/-- The tokens of the shielded source are those of the source, shielded one by one. -/
theorem ofText_shieldAmpersands (source : Text) :
    ofText (shieldAmpersands source) = (ofText source).map shield := by
  induction source using Token.induction with
  | nil => simp
  | line body after oneLine ends inductionHypothesis =>
      obtain ⟨shielded, oneLine', ends'⟩ := lineComment_shieldAmpersands oneLine ends
      have line := shieldAmpersands_append_lineEnd ('/' :: '/' :: body) ends
      rw [shieldAmpersands_cons_of_ne (by decide), shieldAmpersands_cons_of_ne (by decide)] at line
      rw [shielded, ofText_line oneLine' ends', lineEnd_shieldAmpersands ends,
        inductionHypothesis, ofText_line oneLine ends, map_shield_joinRun]
      congr 1
      simpa using line.symm
  | marker digits after valid inductionHypothesis =>
      rw [shieldAmpersands_marker valid]
      have shape : (⟨.generic, digits⟩ : Marker).text ++ shieldAmpersands after =
          '&' :: (digits ++ '.' :: shieldAmpersands after) := by
        simp [Marker.text, MarkerKind.opening, MarkerKind.closing]
      rw [shape, ofText_marker valid, ofText_marker valid, inductionHypothesis]
      rfl
  | char c rest step noLine closed inductionHypothesis =>
      rw [ofText_char step closed, List.map_cons, ← inductionHypothesis]
      by_cases ampersand : c = '&'
      · subst ampersand
        rw [shieldAmpersands_of_not_opens (closed rfl)]
        exact ofText_marker Marker.valid_zero (shieldAmpersands rest)
      · have step' := Lexeme.next_shieldAmpersands ampersand rest
        rw [step] at step'
        rw [shieldAmpersands_cons_of_ne ampersand,
          ofText_char step' (fun equal => absurd equal ampersand)]
        simp [shield, ampersand]
  | literal c rest lexeme after step captured inductionHypothesis =>
      have ampersand : c ≠ '&' := by
        rintro rfl
        rw [Lexeme.next_eq_other (by decide)] at step
        obtain ⟨rfl, rfl⟩ := Prod.mk.inj step
        exact absurd captured (by simp [Lexeme.isShielded])
      have step' := Lexeme.next_shieldAmpersands ampersand rest
      rw [step] at step'
      rw [shieldAmpersands_cons_of_ne ampersand, ofText_literal step captured]
      rw [ofText_literal step' (by cases lexeme <;> simp_all [Lexeme.isShielded, Lexeme.mapText]),
        inductionHypothesis]
      cases lexeme <;> simp_all [Lexeme.isShielded, Lexeme.mapText, Lexeme.text, shield]

end Token

end HeaderBook.Source
