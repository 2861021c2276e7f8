import HeaderBook.Proofs.LiteralContents
import HeaderBook.Proofs.Restoration

/-!
# One source after another

A source that leaves no construct open and ends with a line break outside comments
is read the same whatever follows it. The tokens of two such sources are those of
the first and then those of the second, and so are the items that stand for them,
with the numbers of the second counted on.
-/

namespace HeaderBook.Source

open Text (isDigit)

namespace Token

/-- The last token is a line break outside comments, if there is one. -/
def EndLine (tokens : List Token) : Prop :=
  ∀ token ∈ tokens.getLast?, token = .char '\n'

namespace EndLine

/-- Tokens that end with a line still do when the first is taken away. -/
theorem tail {token : Token} {tokens : List Token} (ends : EndLine (token :: tokens)) :
    EndLine tokens := by
  cases tokens with
  | nil => simp [EndLine]
  | cons next tokens => simpa [EndLine] using ends

/-- A token that is no line break has tokens after it. -/
theorem ne_nil {token : Token} {tokens : List Token} (ends : EndLine (token :: tokens))
    (inner : token ≠ .char '\n') : tokens ≠ [] := by
  rintro rfl
  exact inner (ends token rfl)

/-- A run of comment lines has tokens after it, which end as the whole does. -/
theorem of_joinRun {line : Text} {tokens : List Token} (ends : EndLine (joinRun line tokens)) :
    tokens ≠ [] ∧ EndLine tokens := by
  unfold joinRun at ends
  split at ends
  next lines rest =>
    have more := ends.ne_nil (by simp)
    obtain ⟨next, rest, rfl⟩ := List.exists_cons_of_ne_nil more
    exact ⟨by simp, by simpa [EndLine] using ends⟩
  · exact ⟨ends.ne_nil (by simp), ends.tail⟩

/-- A source whose tokens end with a line ends with a line break. -/
theorem exists_append {source : Text} (ends : EndLine (ofText source)) (nonempty : source ≠ []) :
    ∃ front, source = front ++ ['\n'] := by
  have whole := flatMap_text_ofText source
  have tokens : ofText source ≠ [] := by
    intro empty
    rw [empty] at whole
    exact nonempty whole.symm
  obtain ⟨init, last, equal⟩ := List.eq_nil_or_concat (ofText source) |>.resolve_left tokens
  have newline : last = .char '\n' := ends last (by simp [equal])
  refine ⟨init.flatMap text, ?_⟩
  rw [← whole, equal, newline]
  simp [text]

end EndLine

/-- A line joins the run in front, whatever stands at the end. -/
theorem joinRun_append {line : Text} {tokens : List Token} (nonempty : tokens ≠ [])
    (more : List Token) : joinRun line (tokens ++ more) = joinRun line tokens ++ more := by
  obtain ⟨token, tokens, rfl⟩ := List.exists_cons_of_ne_nil nonempty
  cases token <;> rfl

/-- The indentation after a comment line ends where other text begins. -/
theorem lineEnd_append {after : Text} (nonempty : (lineEnd after).2 ≠ []) (more : Text) :
    lineEnd (after ++ more) = ((lineEnd after).1, (lineEnd after).2 ++ more) := by
  cases after with
  | nil => exact absurd rfl nonempty
  | cons newline after =>
      have stops : after.dropWhile CommentRun.isIndent ≠ [] := nonempty
      have shorter : (after.takeWhile CommentRun.isIndent).length ≠ after.length := by
        intro whole
        have lengths := congrArg List.length
          (List.takeWhile_append_dropWhile (p := CommentRun.isIndent) (l := after))
        rw [List.length_append, whole, Nat.add_eq_left] at lengths
        exact stops (List.eq_nil_of_length_eq_zero lengths)
      simp [lineEnd, List.takeWhile_append, List.dropWhile_append, shorter, stops]

/-- A character outside literals and comments stays outside when more text follows a
source that leaves nothing open. -/
theorem ofText_char_append {c : Char} {rest : Text} (step : Lexeme.next c rest = (.other c, rest))
    (noLine : c = '/' → rest.head? ≠ some '/') (closed : c = '&' → opensGeneric rest = false)
    (settled : Lexeme.Settled (Lexeme.ofText (c :: rest))) (ends : EndLine (.char c :: ofText rest))
    (more : Text) : ofText (c :: (rest ++ more)) = .char c :: ofText (rest ++ more) := by
  rw [Lexeme.ofText_cons, step] at settled
  have goesOn : c ≠ '\n' → rest ≠ [] := by
    rintro inner rfl
    exact ends.ne_nil (by simpa using inner) ofText_nil
  refine ofText_char ?_ fun ampersand => ?_
  · by_cases slash : c = '/'
    · subst slash
      obtain ⟨d, rest, rfl⟩ := List.exists_cons_of_ne_nil (goesOn (by decide))
      exact Lexeme.next_slash_of_settled (noLine rfl) settled rfl
    · have noQuote : c ≠ '"' := by
        rintro rfl
        exact settled.noQuote List.mem_cons_self
      have noApostrophe : c ≠ '\'' := by
        rintro rfl
        exact settled.noApostrophe List.mem_cons_self
      exact Lexeme.next_eq_other (by simp [Lexeme.isPlain, slash, noQuote, noApostrophe]) _
  · obtain ⟨front, equal⟩ := ends.tail.exists_append (goesOn (by simp [ampersand]))
    have stops : ∃ d ∈ rest, isDigit d = false := ⟨'\n', by simp [equal], by decide⟩
    rw [opensGeneric_append_of_mem more stops, closed ampersand]

/-- The tokens of a source that leaves nothing open are not changed by what follows. -/
theorem ofText_append {source : Text} (settled : Lexeme.Settled (Lexeme.ofText source))
    (ends : EndLine (ofText source)) (more : Text) :
    ofText (source ++ more) = ofText source ++ ofText more := by
  -- Captured text and markers end by themselves; a comment line and a character need the
  -- line break at the end, and the character also that nothing is left open.
  induction source using Token.induction with
  | nil => simp
  | line body after oneLine stop inductionHypothesis =>
      rw [ofText_line oneLine stop] at ends ⊢
      rw [ofText_line_lexemes oneLine stop] at settled
      obtain ⟨tokens, endsLater⟩ := ends.of_joinRun
      have nonempty : (lineEnd after).2 ≠ [] := by
        intro empty
        exact tokens (by rw [empty, ofText_nil])
      have stopLater : after ++ more = [] ∨ ∃ later, after ++ more = '\n' :: later := by
        rcases stop with rfl | ⟨later, rfl⟩
        · exact absurd rfl nonempty
        · exact .inr ⟨later ++ more, rfl⟩
      have later := inductionHypothesis settled.tail.of_append endsLater
      rw [List.cons_append, List.cons_append, List.append_assoc, ofText_line oneLine stopLater,
        lineEnd_append nonempty, later, joinRun_append tokens]
  | marker digits after valid inductionHypothesis =>
      rw [ofText_marker valid] at ends ⊢
      rw [Lexeme.ofText_marker valid] at settled
      rw [List.cons_append, List.append_assoc, List.cons_append, ofText_marker valid,
        inductionHypothesis settled.of_append ends.tail]
      rfl
  | char c rest step noLine closed inductionHypothesis =>
      rw [ofText_char step closed] at ends ⊢
      have first := ofText_char_append step noLine closed settled ends more
      rw [Lexeme.ofText_cons, step] at settled
      rw [List.cons_append, first, inductionHypothesis settled.tail ends.tail]
      rfl
  | literal c rest lexeme after step captured inductionHypothesis =>
      rw [ofText_literal step captured] at ends ⊢
      obtain ⟨body, text, again⟩ := Lexeme.next_of_captured step captured
      have whole := Lexeme.text_next_append c rest
      rw [step, text] at whole
      obtain rfl : body ++ after = rest := (List.cons.inj whole).2
      have first := again (after ++ more)
      rw [Lexeme.ofText_cons, step] at settled
      rw [List.cons_append, List.append_assoc, ofText_literal first captured,
        inductionHypothesis settled.tail ends.tail]
      rfl

end Token

/-! ### Marker-shaped text -/

/-- A text holds nothing marker-shaped if its first ampersand does not open a marker and the
rest holds none. -/
theorem unmarked_cons_iff {c : Char} {rest : Text} :
    Unmarked (c :: rest) ↔ (c = '&' → opensGeneric rest = false) ∧ Unmarked rest := by
  constructor
  · intro unmarked
    refine ⟨?_, fun before digits shaped => unmarked _ digits (shaped.append_left [c])⟩
    rintro rfl
    refine Bool.eq_false_iff.mpr fun opens => ?_
    obtain ⟨digits, after, valid, rfl⟩ := opensGeneric_iff.mp opens
    exact unmarked [] digits ⟨valid, after, rfl⟩
  · rintro ⟨closed, unmarked⟩ before digits ⟨valid, after, equal⟩
    cases before with
    | nil =>
        obtain ⟨rfl, rfl⟩ := List.cons.inj equal
        have opens := opensGeneric_iff.mpr ⟨digits, after, valid, rfl⟩
        simp [closed rfl] at opens
    | cons d before => exact unmarked before digits ⟨valid, after, (List.cons.inj equal).2⟩

instance decidableUnmarked : (text : Text) → Decidable (Unmarked text)
  | [] => .isTrue (.of_not_mem List.not_mem_nil)
  | _ :: rest =>
    have := decidableUnmarked rest
    decidable_of_iff _ unmarked_cons_iff.symm

/-- Texts that meet at a boundary hold nothing marker-shaped together if neither does. -/
theorem Unmarked.append {left right : Text} (boundary : Boundary left right)
    (unmarkedLeft : Unmarked left) (unmarkedRight : Unmarked right) : Unmarked (left ++ right) := by
  induction left with
  | nil => exact unmarkedRight
  | cons c left inductionHypothesis =>
      obtain ⟨closed, unmarked⟩ := unmarked_cons_iff.mp unmarkedLeft
      refine unmarked_cons_iff.mpr ⟨?_, inductionHypothesis boundary.tail unmarked⟩
      rintro rfl
      exact boundary.opensGeneric_append.trans (closed rfl)

/-! ### Items -/

/-- The tokens behind are numbered on from those in front. -/
theorem Item.ofTokens_append (generic doc : Nat) (left right : List Token) :
    Item.ofTokens generic doc (left ++ right) =
      Item.ofTokens generic doc left ++
        Item.ofTokens (generic + (left.filterMap Token.literal?).length)
          (doc + (left.filterMap Token.comment?).length) right := by
  fun_induction Item.ofTokens generic doc left with
  | case1 => rfl
  | case2 generic doc c left inductionHypothesis =>
      rw [List.cons_append, Item.ofTokens, inductionHypothesis]
      rfl
  | case3 generic doc digits left inductionHypothesis =>
      rw [List.cons_append, Item.ofTokens, inductionHypothesis]
      rfl
  | case4 generic doc text left inductionHypothesis =>
      rw [List.cons_append, Item.ofTokens, inductionHypothesis, Nat.add_right_comm]
      rfl
  | case5 generic doc lines left inductionHypothesis =>
      rw [List.cons_append, Item.ofTokens, inductionHypothesis, Nat.add_right_comm doc]
      rfl

end HeaderBook.Source
