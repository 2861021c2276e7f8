import HeaderBook.Proofs.SourceToken

/-!
# What the capturing passes leave

Literals are shielded first and runs of comment lines are captured from the text
that is left. Both passes are computed here from the tokens of one scan: a
literal is a token, and so is a run. In particular a line comment that shielding
steps over is the same line that the run captured later holds, because a marker
in place of a literal neither begins a comment nor ends one.
-/

namespace HeaderBook.Source.Token

/-- The text of a captured literal or block comment. -/
def literal? : Token → Option Text
  | .literal text => some text
  | _ => none

/-- The lines of a captured run. -/
def comment? : Token → Option (List Text)
  | .comment lines => some lines
  | _ => none

/-- The text that shielding literals leaves, with markers numbered from `index` on. -/
def afterShielding (index : Nat) : List Token → Text
  | [] => []
  | .literal _ :: rest => MarkerKind.generic.format index ++ afterShielding (index + 1) rest
  | .char c :: rest => c :: afterShielding index rest
  | .marker digits :: rest => (⟨.generic, digits⟩ : Marker).text ++ afterShielding index rest
  | .comment lines :: rest => lines.flatten ++ afterShielding index rest

/-- A line that joins the run in front is written before the rest. -/
theorem afterShielding_joinRun (index : Nat) (line : Text) (tokens : List Token) :
    afterShielding index (joinRun line tokens) = line ++ afterShielding index tokens := by
  unfold joinRun
  split
  · simp [afterShielding]
  · simp [afterShielding]

/-- Joining a line to a run changes no literal. -/
theorem filterMap_literal?_joinRun (line : Text) (tokens : List Token) :
    (joinRun line tokens).filterMap literal? = tokens.filterMap literal? := by
  unfold joinRun
  split
  · rfl
  · rfl

/-! ### Shielding literals -/

/-- The lexemes of a comment line: the comment, and each character of its end. -/
theorem ofText_line_lexemes {body after : Text} (oneLine : '\n' ∉ body)
    (ends : after = [] ∨ ∃ more, after = '\n' :: more) :
    Lexeme.ofText ('/' :: '/' :: (body ++ after)) =
      .lineComment ('/' :: '/' :: body) ::
        ((lineEnd after).1.map .other ++ Lexeme.ofText (lineEnd after).2) := by
  have plain : ∀ c ∈ (lineEnd after).1, Lexeme.isPlain c = true := by
    rcases ends with rfl | ⟨more, rfl⟩
    · simp [lineEnd]
    · intro c member
      rcases List.mem_cons.mp member with rfl | indent
      · decide
      · have all := List.all_takeWhile (p := CommentRun.isIndent) (l := more)
        have isIndent := List.all_eq_true.mp all c indent
        simp only [CommentRun.isIndent, Bool.or_eq_true, decide_eq_true_eq] at isIndent
        rcases isIndent with rfl | rfl <;> decide
  have cut := Lexeme.ofText_append_of_plain plain (lineEnd after).2
  rw [append_lineEnd] at cut
  rw [Lexeme.ofText_cons, Lexeme.next_slash_slash, Lexeme.lineRest_append oneLine ends, cut]

/-- The text that shielding literals leaves is read off the tokens. -/
theorem replaceShielded_ofText (index : Nat) (source : Text) :
    Lexeme.replaceShielded .generic index (Lexeme.ofText source) =
      afterShielding index (ofText source) := by
  induction source using Token.induction generalizing index with
  | nil => simp [Lexeme.replaceShielded, afterShielding]
  | line body after oneLine ends inductionHypothesis =>
      rw [ofText_line oneLine ends, afterShielding_joinRun, ← inductionHypothesis,
        ofText_line_lexemes oneLine ends, Lexeme.replaceShielded]
      simp [Lexeme.isShielded, Lexeme.text, Lexeme.replaceShielded_others]
  | marker digits after valid inductionHypothesis =>
      rw [ofText_marker valid, Lexeme.ofText_marker valid, Lexeme.replaceShielded_others,
        inductionHypothesis]
      simp [afterShielding, Marker.text, MarkerKind.opening, MarkerKind.closing]
  | char c rest step _ closed inductionHypothesis =>
      rw [ofText_char step closed, afterShielding, ← inductionHypothesis, Lexeme.ofText_cons, step]
      rfl
  | literal c rest lexeme after step captured inductionHypothesis =>
      rw [ofText_literal step captured, Lexeme.ofText_cons, step, Lexeme.replaceShielded,
        if_pos captured, inductionHypothesis]
      rfl

/-- The captured literals are the literals among the tokens. -/
theorem filter_isShielded_ofText (source : Text) :
    ((Lexeme.ofText source).filter Lexeme.isShielded).map Lexeme.text =
      (ofText source).filterMap literal? := by
  induction source using Token.induction with
  | nil => simp
  | line body after oneLine ends inductionHypothesis =>
      rw [ofText_line oneLine ends, filterMap_literal?_joinRun, ← inductionHypothesis,
        ofText_line_lexemes oneLine ends]
      simp [List.filter_append, Lexeme.isShielded]
  | marker digits after valid inductionHypothesis =>
      rw [ofText_marker valid, Lexeme.ofText_marker valid, List.filter_append,
        Lexeme.filter_isShielded_others, List.nil_append, inductionHypothesis]
      rfl
  | char c rest step _ closed inductionHypothesis =>
      rw [ofText_char step closed, Lexeme.ofText_cons, step]
      exact inductionHypothesis
  | literal c rest lexeme after step captured inductionHypothesis =>
      rw [ofText_literal step captured, Lexeme.ofText_cons, step]
      rw [List.filter_cons_of_pos captured, List.map_cons, inductionHypothesis]
      rfl

end HeaderBook.Source.Token

namespace HeaderBook.Source

open CommentRun

/-! ### Capturing runs -/

namespace Stretch

/-- The empty text has no stretches. -/
@[simp] theorem ofText_nil : ofText [] = [] := by
  rw [ofText]

/-- Outside a `//` a character is a stretch of its own. -/
theorem ofText_other {c : Char} {rest : Text} (noLine : c = '/' → rest.head? ≠ some '/') :
    ofText (c :: rest) = .other c :: ofText rest := by
  have none : line? (c :: rest) = none := by
    unfold line?
    split
    next tail equal =>
      obtain ⟨rfl, rfl⟩ := List.cons.inj equal
      exact absurd rfl (noLine rfl)
    · rfl
  rw [ofText]
  split
  · rfl
  next found => simp [none] at found

/-- Text without a slash holds no comment line, so every character of it stands for itself. -/
theorem ofText_append_of_not_mem {text : Text} (noSlash : '/' ∉ text) (rest : Text) :
    ofText (text ++ rest) = text.map .other ++ ofText rest := by
  induction text with
  | nil => rfl
  | cons c text inductionHypothesis =>
      rw [List.mem_cons, not_or] at noSlash
      rw [List.cons_append, ofText_other (fun slash => absurd slash.symm noSlash.1),
        inductionHypothesis noSlash.2]
      rfl

/-- A comment line before stretches: it joins the run that follows it directly. -/
def joinLine (line : Text) : List Stretch → List Stretch
  | .run lines :: rest => .run (line :: lines) :: rest
  | rest => .run [line] :: rest

/-- A comment line begins a run. -/
theorem ofText_of_line? {text line rest : Text} (found : line? text = some (line, rest)) :
    ofText text = .run (line :: (lines rest).1) :: ofText (lines rest).2 := by
  cases text with
  | nil => simp [line?] at found
  | cons c tail =>
      rw [ofText]
      split
      next none => simp [found] at none
      next again =>
        simp only [found, Option.some.injEq, Prod.mk.injEq] at again
        rw [again.1, again.2]

/-- A comment line at the front joins the run that follows it. -/
theorem ofText_line {text line rest : Text} (found : line? text = some (line, rest)) :
    ofText text = joinLine line (ofText rest) := by
  rw [ofText_of_line? found, lines]
  split
  next none =>
    -- No line follows, so the next stretch is no run.
    cases rest with
    | nil => simp [joinLine]
    | cons c tail =>
        have other : ofText (c :: tail) = .other c :: ofText tail := by
          rw [ofText]
          split
          · rfl
          next found => simp [none] at found
        simp [other, joinLine]
  next line' rest' found' =>
    rw [ofText_of_line? found']
    rfl

end Stretch

/-- A comment line is found with its end, when what follows does not continue the
indentation. -/
theorem CommentRun.line?_lineEnd {body after rest : Text} (oneLine : '\n' ∉ body)
    (ends : after = [] ∨ ∃ more, after = '\n' :: more)
    (stops : ∀ c, rest.head? = some c → isIndent c = false)
    (final : after = [] → rest = []) :
    line? ('/' :: '/' :: (body ++ (Token.lineEnd after).1) ++ rest) =
      some ('/' :: '/' :: (body ++ (Token.lineEnd after).1), rest) := by
  have inside : ∀ c ∈ body, (decide (c ≠ '\n')) = true := by
    intro c member
    have different : c ≠ '\n' := by
      rintro rfl
      exact oneLine member
    simpa using different
  simp only [List.cons_append, List.append_assoc, line?]
  rw [List.takeWhile_append_of_pos inside, List.dropWhile_append_of_pos inside]
  rcases ends with rfl | ⟨more, rfl⟩
  · simp [final rfl, Token.lineEnd]
  · have indented : ∀ c ∈ more.takeWhile isIndent, isIndent c = true :=
      List.all_eq_true.mp List.all_takeWhile
    have taken : (more.takeWhile isIndent ++ rest).takeWhile isIndent = more.takeWhile isIndent := by
      rw [List.takeWhile_append_of_pos indented]
      cases rest with
      | nil => simp
      | cons c rest => simp [stops c rfl]
    have dropped : (more.takeWhile isIndent ++ rest).dropWhile isIndent = rest := by
      rw [List.dropWhile_append_of_pos indented]
      cases rest with
      | nil => rfl
      | cons c rest => simp [stops c rfl]
    simp [Token.lineEnd, taken, dropped]

namespace Token

/-- The stretches of the text that shielding literals leaves. -/
def stretches (index : Nat) : List Token → List Stretch
  | [] => []
  | .literal _ :: rest =>
    (MarkerKind.generic.format index).map .other ++ stretches (index + 1) rest
  | .char c :: rest => .other c :: stretches index rest
  | .marker digits :: rest =>
    (⟨.generic, digits⟩ : Marker).text.map .other ++ stretches index rest
  | .comment lines :: rest => .run lines :: stretches index rest

/-- A line joins the run of the stretches as it joins that of the tokens. -/
theorem stretches_joinRun (index : Nat) (line : Text) (tokens : List Token) :
    stretches index (joinRun line tokens) = Stretch.joinLine line (stretches index tokens) := by
  cases tokens with
  | nil => rfl
  | cons token tokens => cases token <;> rfl

/-- A marker takes the place of a literal; any other beginning is kept. -/
theorem head?_afterShielding {index : Nat} {source : Text} {c : Char}
    (head : (afterShielding index (ofText source)).head? = some c) (plain : c ≠ '&') :
    source.head? = some c := by
  have generic : ∀ digits rest, ((⟨.generic, digits⟩ : Marker).text ++ rest).head? = some '&' :=
    fun _ _ => rfl
  induction source using Token.induction with
  | nil => simp [afterShielding] at head
  | line body after oneLine ends _ =>
      rw [ofText_line oneLine ends, afterShielding_joinRun] at head
      exact head
  | marker digits after valid _ =>
      rw [ofText_marker valid, afterShielding, generic] at head
      exact absurd (Option.some.inj head).symm plain
  | char d rest step _ closed _ =>
      rw [ofText_char step closed, afterShielding] at head
      exact head
  | literal d rest lexeme after step captured _ =>
      rw [ofText_literal step captured, afterShielding] at head
      exact absurd (Option.some.inj ((generic _ _).symm.trans head)).symm plain

/-- A marker of any kind holds no slash. -/
theorem slash_not_mem_marker {marker : Marker} (valid : marker.Valid) : '/' ∉ marker.text := by
  obtain ⟨kind, digits⟩ := marker
  cases kind <;> exact valid.not_mem_text (by decide) (by decide) (by decide)

/-- The runs of the text that shielding literals leaves are the runs among the
tokens. -/
theorem ofText_afterShielding (index : Nat) (source : Text) :
    Stretch.ofText (afterShielding index (ofText source)) = stretches index (ofText source) := by
  induction source using Token.induction generalizing index with
  | nil => simp [afterShielding, stretches]
  | line body after oneLine ends inductionHypothesis =>
      rw [ofText_line oneLine ends, afterShielding_joinRun, stretches_joinRun,
        ← inductionHypothesis]
      refine Stretch.ofText_line (line?_lineEnd oneLine ends (fun c head => ?_) ?_)
      · by_cases indent : isIndent c = true
        · have plain : c ≠ '&' := by
            rintro rfl
            exact absurd indent (by decide)
          have source := head?_afterShielding head plain
          rcases ends with rfl | ⟨more, rfl⟩
          · simp [lineEnd] at source
          · have stops := List.head?_dropWhile_not isIndent more
            simp only [lineEnd] at source
            rw [source] at stops
            simpa using stops
        · simpa using indent
      · rintro rfl
        simp [lineEnd, afterShielding]
  | marker digits after valid inductionHypothesis =>
      rw [ofText_marker valid, afterShielding,
        Stretch.ofText_append_of_not_mem (slash_not_mem_marker valid), inductionHypothesis]
      rfl
  | char c rest step noLine closed inductionHypothesis =>
      rw [ofText_char step closed, afterShielding, Stretch.ofText_other, inductionHypothesis]
      · rfl
      · intro slash head
        exact noLine slash (head?_afterShielding head (by decide))
  | literal c rest lexeme after step captured inductionHypothesis =>
      have noSlash : '/' ∉ MarkerKind.generic.format index :=
        slash_not_mem_marker (Marker.valid_ofIndex .generic index)
      rw [ofText_literal step captured, afterShielding,
        Stretch.ofText_append_of_not_mem noSlash, inductionHypothesis]
      rfl

end Token

end HeaderBook.Source
