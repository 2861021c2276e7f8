import HeaderBook.Proofs.LiteralContents

/-!
# Shielding a shielded text

A second shielding pass should find nothing to capture, and it finds nothing that
the first has not left open: markers open no construct and close none. What the
markers can do is bring the parts of a line together. A literal ends with its
line, a block comment may hold line breaks, and a marker in its place holds none;
so a quote that was left open before such a comment may find its mate behind it.

`Reading` follows a literal character by character. `skim` reads lexemes and
steps over the captured ones, and `closesLate` tells whether an open quote is
closed that way. `shield_shield` says that this is the only reason why a second
pass captures anything, and that without a block comment of several lines after
an open quote there is no such reason.
-/

namespace HeaderBook.Source

open Text (isDigit)

/-- Where reading after an opening quote has got to. -/
inductive Reading where
  /-- Between the quotes. -/
  | inside
  /-- After a backslash, which takes the next character with it. -/
  | escaping
  /-- After the closing quote. -/
  | closed
  /-- After a bare line break. -/
  | broken
  deriving DecidableEq, Repr

namespace Reading

/-- Reads one character. -/
def step (quote : Char) (reading : Reading) (c : Char) : Reading :=
  match reading with
  | .inside =>
    if c = quote then .closed
    else if c = '\\' then .escaping
    else if c = '\n' then .broken
    else .inside
  | .escaping => .inside
  | .closed => .closed
  | .broken => .broken

/-- Reads a text. -/
def read (quote : Char) (reading : Reading) (text : Text) : Reading :=
  text.foldl (step quote) reading

/-- Steps over something as over an ordinary character. -/
def pass : Reading → Reading
  | .inside | .escaping => .inside
  | .closed => .closed
  | .broken => .broken

/-- Reads a lexeme, or steps over it if it is captured. -/
def skimLexeme (quote : Char) (reading : Reading) (lexeme : Lexeme) : Reading :=
  if lexeme.isShielded then reading.pass else reading.read quote lexeme.text

/-- Reads lexemes and steps over the captured ones. -/
def skim (quote : Char) (reading : Reading) (lexemes : List Lexeme) : Reading :=
  lexemes.foldl (skimLexeme quote) reading

end Reading

/-- `isQuote c` holds for the two characters that open literals. -/
def isQuote (c : Char) : Bool :=
  c = '"' || c = '\''

/-- `closesLate lexemes` holds when some quote among the lexemes, which opens no
literal, is closed once the captured lexemes after it are stepped over. -/
def closesLate : List Lexeme → Bool
  | [] => false
  | .other c :: rest =>
    (isQuote c && Reading.skim c .inside rest = .closed) || closesLate rest
  | _ :: rest => closesLate rest

namespace Reading

theorem read_nil (quote : Char) (reading : Reading) : reading.read quote [] = reading :=
  rfl

theorem read_cons (quote : Char) (reading : Reading) (c : Char) (text : Text) :
    reading.read quote (c :: text) = (reading.step quote c).read quote text :=
  rfl

/-- A text is read in two parts as it is read at once. -/
theorem read_append (quote : Char) (reading : Reading) (left right : Text) :
    reading.read quote (left ++ right) = (reading.read quote left).read quote right :=
  List.foldl_append

/-- A literal that is closed stays closed. -/
@[simp] theorem read_closed (quote : Char) (text : Text) : closed.read quote text = closed := by
  induction text with
  | nil => rfl
  | cons c text inductionHypothesis => exact inductionHypothesis

/-- A literal that is broken off stays so. -/
@[simp] theorem read_broken (quote : Char) (text : Text) : broken.read quote text = broken := by
  induction text with
  | nil => rfl
  | cons c text inductionHypothesis => exact inductionHypothesis

/-- A literal is complete exactly when reading closes it. -/
theorem read_eq_closed_iff (quote : Char) (text : Text) :
    inside.read quote text = closed ↔ (Lexeme.literalRest? quote text).isSome = true := by
  fun_induction Lexeme.literalRest? quote text with
  | case1 => simp [read_nil]
  | case2 rest => simp [read_cons, step]
  | case3 notQuote => simp [read_cons, read_nil, step, notQuote]
  | case4 escaped rest notQuote inductionHypothesis =>
      have steps : (inside.step quote '\\').step quote escaped = inside := by
        simp [step, notQuote]
      rw [read_cons, read_cons, steps, inductionHypothesis, Option.isSome_map]
  | case5 rest notQuote _ => simp [read_cons, step, notQuote]
  | case6 c rest notQuote notBackslash notNewline inductionHypothesis =>
      have stays : inside.step quote c = inside := by
        simp [step, notQuote, notBackslash, notNewline]
      rw [read_cons, stays, inductionHypothesis, Option.isSome_map]

end Reading

/-- There are two quotes. -/
theorem eq_of_isQuote {quote : Char} (quotes : isQuote quote = true) :
    quote = '"' ∨ quote = '\'' := by
  simpa [isQuote] using quotes

/-- A generic marker consists of an ampersand, digits and a full stop. -/
theorem not_mem_format_generic {c : Char} (noDigit : isDigit c = false) (notAmpersand : c ≠ '&')
    (notDot : c ≠ '.') (index : Nat) : c ∉ MarkerKind.generic.format index :=
  (Marker.valid_ofIndex .generic index).not_mem_text noDigit
    (by simpa [MarkerKind.opening] using notAmpersand) notDot

namespace Reading

/-- Characters that are ordinary between the quotes are stepped over. -/
theorem read_plain {quote : Char} {text : Text} (nonempty : text ≠ [])
    (noQuote : quote ∉ text) (noBackslash : '\\' ∉ text) (noNewline : '\n' ∉ text)
    (reading : Reading) : reading.read quote text = reading.pass := by
  induction text generalizing reading with
  | nil => exact absurd rfl nonempty
  | cons c rest inductionHypothesis =>
      simp only [List.mem_cons, not_or] at noQuote noBackslash noNewline
      have first : reading.step quote c = reading.pass := by
        cases reading <;>
          simp [step, pass, Ne.symm noQuote.1, Ne.symm noBackslash.1, Ne.symm noNewline.1]
      rw [read_cons, first]
      by_cases empty : rest = []
      · rw [empty, read_nil]
      · rw [inductionHypothesis empty noQuote.2 noBackslash.2 noNewline.2]
        cases reading <;> rfl

/-- A marker is stepped over. -/
theorem read_format {quote : Char} (quotes : isQuote quote = true) (index : Nat)
    (reading : Reading) :
    reading.read quote (MarkerKind.generic.format index) = reading.pass := by
  apply read_plain
  · simp [MarkerKind.format, MarkerKind.opening]
  · rcases eq_of_isQuote quotes with rfl | rfl
    · exact not_mem_format_generic (by decide) (by decide) (by decide) index
    · exact not_mem_format_generic (by decide) (by decide) (by decide) index
  · exact not_mem_format_generic (by decide) (by decide) (by decide) index
  · exact not_mem_format_generic (by decide) (by decide) (by decide) index

/-- Reading a text with markers is reading its lexemes and stepping over the
captured ones. -/
theorem read_replaceShielded {quote : Char} (quotes : isQuote quote = true) (index : Nat)
    (lexemes : List Lexeme) (reading : Reading) :
    reading.read quote (Lexeme.replaceShielded .generic index lexemes) =
      reading.skim quote lexemes := by
  induction lexemes generalizing index reading with
  | nil => rfl
  | cons lexeme lexemes inductionHypothesis =>
      rw [Lexeme.replaceShielded, skim, List.foldl_cons, skimLexeme]
      split
      · rw [read_append, read_format quotes, inductionHypothesis]
        rfl
      · rw [read_append, inductionHypothesis]
        rfl

/-! ### Shielded ampersands are read alike -/

/-- What is inserted after an ampersand is stepped over, as the ampersand was. -/
theorem read_inserted {quote : Char} (quotes : isQuote quote = true) (c : Char) (rest : Text)
    (reading : Reading) :
    (reading.step quote c).read quote (inserted c rest) = reading.step quote c := by
  by_cases ampersand : c = '&'
  · subst ampersand
    have other : '&' ≠ quote := by
      rintro rfl
      exact absurd quotes (by decide)
    have noQuote : quote ∉ ['0', '.'] := by
      rcases eq_of_isQuote quotes with rfl | rfl <;> decide
    rcases inserted_cases '&' rest with empty | marker
    · rw [empty, read_nil]
    · rw [marker, read_plain (by decide) noQuote (by decide) (by decide)]
      cases reading <;> simp [step, pass, other]
  · rw [inserted_of_ne ampersand, read_nil]

/-- Shielding ampersands does not change where a literal closes. -/
theorem read_shieldAmpersands {quote : Char} (quotes : isQuote quote = true) (text : Text)
    (reading : Reading) :
    reading.read quote (shieldAmpersands text) = reading.read quote text := by
  induction text generalizing reading with
  | nil => rfl
  | cons c rest inductionHypothesis =>
      rw [shieldAmpersands_cons, read_cons, read_append, read_inserted quotes,
        inductionHypothesis, read_cons]

/-- Single characters are read. -/
theorem skim_others (quote : Char) (text : Text) (lexemes : List Lexeme) (reading : Reading) :
    reading.skim quote (text.map .other ++ lexemes) =
      (reading.read quote text).skim quote lexemes := by
  rw [skim, List.foldl_append, List.foldl_map]
  rfl

/-- Shielding ampersands does not change where a literal closes past captured constructs. -/
theorem skim_shieldAll {quote : Char} (quotes : isQuote quote = true) (lexemes : List Lexeme)
    (reading : Reading) :
    reading.skim quote (Lexeme.shieldAll lexemes) = reading.skim quote lexemes := by
  induction lexemes generalizing reading with
  | nil => rfl
  | cons lexeme lexemes inductionHypothesis =>
      rw [Lexeme.shieldAll]
      cases lexeme with
      | other c =>
          rw [Lexeme.shielded, ← List.map_cons, skim_others, read_cons, read_inserted quotes,
            inductionHypothesis]
          rfl
      | lineComment line =>
          have same : reading.skimLexeme quote (.lineComment (shieldAmpersands line)) =
              reading.skimLexeme quote (.lineComment line) :=
            read_shieldAmpersands quotes line reading
          exact (congrArg (skim quote · (Lexeme.shieldAll lexemes)) same).trans
            (inductionHypothesis _)
      | blockComment body => exact inductionHypothesis _
      | stringLiteral body => exact inductionHypothesis _
      | charLiteral body => exact inductionHypothesis _

end Reading

/-- Characters that are no quotes close nothing late. -/
theorem closesLate_others {text : Text} (noQuote : ∀ c ∈ text, isQuote c = false)
    (lexemes : List Lexeme) : closesLate (text.map .other ++ lexemes) = closesLate lexemes := by
  induction text with
  | nil => rfl
  | cons c text inductionHypothesis =>
      have tail := inductionHypothesis fun d member => noQuote d (List.mem_cons_of_mem c member)
      rw [List.map_cons, List.cons_append, closesLate, noQuote c List.mem_cons_self, tail]
      rfl

/-- Shielding ampersands closes no quote. -/
theorem closesLate_shieldAll (lexemes : List Lexeme) :
    closesLate (Lexeme.shieldAll lexemes) = closesLate lexemes := by
  induction lexemes with
  | nil => rfl
  | cons lexeme lexemes inductionHypothesis =>
      rw [Lexeme.shieldAll]
      cases lexeme with
      | other c =>
          by_cases ampersand : c = '&'
          · subst ampersand
            have noQuote : ∀ d ∈ '&' :: inserted '&' (lexemes.flatMap Lexeme.text),
                isQuote d = false := by
              rcases inserted_cases '&' (lexemes.flatMap Lexeme.text) with empty | marker
              · rw [empty]
                exact List.forall_mem_singleton.mpr rfl
              · rw [marker]
                exact List.forall_mem_cons.mpr
                  ⟨rfl, List.forall_mem_cons.mpr ⟨rfl, List.forall_mem_singleton.mpr rfl⟩⟩
            rw [Lexeme.shielded, ← List.map_cons, closesLate_others noQuote, inductionHypothesis]
            rfl
          · rw [Lexeme.shielded, inserted_of_ne ampersand, List.map_nil, List.singleton_append,
              closesLate, closesLate, inductionHypothesis]
            cases quotes : isQuote c with
            | false => rfl
            | true => rw [Reading.skim_shieldAll quotes]
      | lineComment line => exact inductionHypothesis
      | blockComment body => exact inductionHypothesis
      | stringLiteral body => exact inductionHypothesis
      | charLiteral body => exact inductionHypothesis

/-! ### Open block comments stay open -/

namespace Lexeme

/-- A block comment is open exactly when `*/` occurs nowhere. -/
theorem blockRest?_eq_none_iff (text : Text) :
    blockRest? text = none ↔ ¬ ['*', '/'] <:+: text := by
  fun_induction blockRest? text with
  | case1 rest =>
      have found : ['*', '/'] <:+: '*' :: '/' :: rest := ⟨[], rest, rfl⟩
      simp [found]
  | case2 c rest notClosing inductionHypothesis =>
      rw [Option.map_eq_none_iff, inductionHypothesis, List.infix_cons_iff, not_or]
      refine ⟨fun later => ⟨?_, later⟩, And.right⟩
      rintro ⟨more, equal⟩
      obtain ⟨rfl, rfl⟩ := List.cons.inj equal
      exact notClosing more rfl rfl
  | case3 => simp

/-- Two characters in a row stand in one of two parts or across their border. -/
theorem pair_infix_append {a b : Char} {left right : Text} :
    [a, b] <:+: left ++ right ↔
      [a, b] <:+: left ∨ [a, b] <:+: right ∨ [a] <:+ left ∧ right.head? = some b := by
  rw [List.infix_append_iff_ne_nil]
  refine or_congr_right (or_congr_right ⟨?_, ?_⟩)
  · rintro ⟨first, second, firstNonempty, secondNonempty, pair, ends, begins⟩
    obtain ⟨x, front, rfl⟩ := List.exists_cons_of_ne_nil firstNonempty
    obtain ⟨y, back, rfl⟩ := List.exists_cons_of_ne_nil secondNonempty
    obtain ⟨rfl, rest⟩ := List.cons.inj pair
    obtain ⟨rfl, rest⟩ := List.append_eq_singleton_iff.mp rest.symm |>.resolve_right (by simp)
    obtain ⟨more, rfl⟩ := begins
    exact ⟨ends, congrArg some (List.cons.inj rest).1.symm⟩
  · rintro ⟨ends, begins⟩
    obtain ⟨more, rfl⟩ := List.head?_eq_some_iff.mp begins
    exact ⟨[a], [b], by simp, by simp, rfl, ends, ⟨more, rfl⟩⟩

/-- Markers bring no `*/` about. -/
theorem infix_of_infix_replaceShielded {index : Nat} {text : Text}
    (found : ['*', '/'] <:+: replaceShielded .generic index (ofText text)) :
    ['*', '/'] <:+: text := by
  have noStar : ∀ index, '*' ∉ MarkerKind.generic.format index :=
    not_mem_format_generic (by decide) (by decide) (by decide)
  fun_induction ofText text generalizing index with
  | case1 => exact found
  | case2 c rest inductionHypothesis =>
      rw [← text_next_append c rest, pair_infix_append]
      rw [replaceShielded] at found
      split at found
      · rcases pair_infix_append.mp found with marker | later | ⟨last, _⟩
        · exact absurd (marker.subset List.mem_cons_self) (noStar index)
        · exact .inr (.inl (inductionHypothesis later))
        · exact absurd (last.subset List.mem_cons_self) (noStar index)
      · rcases pair_infix_append.mp found with here | later | ⟨last, first⟩
        · exact .inl here
        · exact .inr (.inl (inductionHypothesis later))
        · -- A marker begins with an ampersand, so the slash was there before.
          rcases head?_replaceShielded index (next c rest).2 with same | marker
          · exact .inr (.inr ⟨last, same ▸ first⟩)
          · rw [marker] at first
            exact absurd (Option.some.inj first) (by decide)

/-- A block comment that is open stays open when markers are put in. -/
theorem blockRest?_replaceShielded {text : Text} (opened : blockRest? text = none) (index : Nat) :
    blockRest? (replaceShielded .generic index (ofText text)) = none := by
  rw [blockRest?_eq_none_iff] at opened ⊢
  exact fun found => opened (infix_of_infix_replaceShielded found)

/-- A quote opens a literal exactly when reading closes it. -/
theorem next_of_isQuote {quote : Char} (quotes : isQuote quote = true) (rest : Text) :
    Reading.inside.read quote rest = .closed ∧ (next quote rest).1.isShielded = true ∨
      Reading.inside.read quote rest ≠ .closed ∧ next quote rest = (.other quote, rest) := by
  rw [ne_eq, Reading.read_eq_closed_iff]
  rcases eq_of_isQuote quotes with rfl | rfl
  · rw [next_quote]
    cases literalRest? '"' rest with
    | none => exact .inr ⟨by simp, rfl⟩
    | some cut => exact .inl ⟨rfl, rfl⟩
  · rw [next_apostrophe]
    cases literalRest? '\'' rest with
    | none => exact .inr ⟨by simp, rfl⟩
    | some cut => exact .inl ⟨rfl, rfl⟩

/-- A character that is neither a quote nor a slash begins no construct. -/
theorem isPlain_of_not_isQuote {c : Char} (noQuote : isQuote c = false) (slash : c ≠ '/') :
    isPlain c = true := by
  simp only [isQuote, Bool.or_eq_false_iff, decide_eq_false_iff_not] at noQuote
  simp [isPlain, slash, noQuote]

end Lexeme

/-! ### What a second pass captures -/

/-- `Quiet text` holds when no literal and no block comment of the text is complete. -/
def Quiet (text : Text) : Prop :=
  (Lexeme.ofText text).filter Lexeme.isShielded = []

namespace Quiet

theorem nil : Quiet [] := by
  simp [Quiet]

/-- A construct that is not captured does not decide whether a text is quiet. -/
theorem cons_iff {c : Char} {rest after : Text} {lexeme : Lexeme}
    (step : Lexeme.next c rest = (lexeme, after)) (kept : lexeme.isShielded = false) :
    Quiet (c :: rest) ↔ Quiet after := by
  rw [Quiet, Lexeme.ofText_cons, step, List.filter_cons_of_neg (by simp [kept])]
  rfl

/-- A marker does not decide whether a text is quiet. -/
theorem format_append_iff (index : Nat) (text : Text) :
    Quiet (MarkerKind.generic.format index ++ text) ↔ Quiet text := by
  have marker := Lexeme.ofText_marker (HeaderBook.Marker.valid_ofIndex .generic index) text
  have shape : MarkerKind.generic.format index ++ text =
      '&' :: (Text.decimal index ++ '.' :: text) := by
    simp [MarkerKind.format, MarkerKind.opening, MarkerKind.closing]
  rw [Quiet, shape, marker, List.filter_append, Lexeme.filter_isShielded_others]
  rfl

end Quiet

/-- A slash that opens no comment opens none when markers are put in after it. -/
theorem next_slash_replaceShielded {rest : Text} (step : Lexeme.next '/' rest = (.other '/', rest))
    (noLine : rest.head? ≠ some '/') (index : Nat) :
    Lexeme.next '/' (Lexeme.replaceShielded .generic index (Lexeme.ofText rest)) =
      (.other '/', Lexeme.replaceShielded .generic index (Lexeme.ofText rest)) := by
  by_cases star : rest.head? = some '*'
  · obtain ⟨block, rfl⟩ := List.head?_eq_some_iff.mp star
    have opened : Lexeme.blockRest? block = none := by
      rw [Lexeme.next_slash_star] at step
      cases found : Lexeme.blockRest? block with
      | none => rfl
      | some cut => simp [found] at step
    rw [Lexeme.replaceShielded_plain rfl, Lexeme.next_slash_star,
      Lexeme.blockRest?_replaceShielded opened]
  · rcases Lexeme.head?_replaceShielded index rest with same | marker
    · exact Lexeme.next_slash_other (same ▸ noLine) (same ▸ star)
    · exact Lexeme.next_slash_other (by simp [marker]) (by simp [marker])

/-- A character that opened nothing opens a literal when markers are put in after it
exactly if it is a quote that is closed then. -/
theorem quiet_cons_replaceShielded_iff {c : Char} {rest : Text}
    (step : Lexeme.next c rest = (.other c, rest)) (noLine : c = '/' → rest.head? ≠ some '/')
    (index : Nat) :
    Quiet (c :: Lexeme.replaceShielded .generic index (Lexeme.ofText rest)) ↔
      (isQuote c = true → Reading.inside.skim c (Lexeme.ofText rest) ≠ .closed) ∧
        Quiet (Lexeme.replaceShielded .generic index (Lexeme.ofText rest)) := by
  cases quotes : isQuote c with
  | true =>
      have read := Reading.read_replaceShielded quotes index (Lexeme.ofText rest) .inside
      rcases Lexeme.next_of_isQuote quotes
          (Lexeme.replaceShielded .generic index (Lexeme.ofText rest)) with
        ⟨closed, captured⟩ | ⟨opened, other⟩
      · rw [read] at closed
        have loud : ¬ Quiet (c :: Lexeme.replaceShielded .generic index (Lexeme.ofText rest)) := by
          rw [Quiet, Lexeme.ofText_cons, List.filter_cons_of_pos captured]
          exact List.cons_ne_nil _ _
        simp [loud, closed]
      · rw [read] at opened
        simp [Quiet.cons_iff other rfl, opened]
  | false =>
      have other : Lexeme.next c (Lexeme.replaceShielded .generic index (Lexeme.ofText rest)) =
          (.other c, Lexeme.replaceShielded .generic index (Lexeme.ofText rest)) := by
        by_cases slash : c = '/'
        · subst slash
          exact next_slash_replaceShielded step (noLine rfl) index
        · exact Lexeme.next_eq_other (Lexeme.isPlain_of_not_isQuote quotes slash) _
      simp [Quiet.cons_iff other rfl]

/-- A text with markers in place of its captured lexemes is quiet unless one of its
open quotes is closed late. The second scan goes along with the first: it takes a
marker for each captured lexeme, the same line comments, and the same characters,
up to a quote that finds its mate. -/
theorem quiet_replaceShielded_iff (index : Nat) (text : Text) :
    Quiet (Lexeme.replaceShielded .generic index (Lexeme.ofText text)) ↔
      closesLate (Lexeme.ofText text) = false := by
  fun_induction Lexeme.ofText text generalizing index with
  | case1 => simpa [Lexeme.replaceShielded, closesLate] using Quiet.nil
  | case2 c rest inductionHypothesis =>
      have cut := Lexeme.cut_next c rest
      generalize step : Lexeme.next c rest = result at cut inductionHypothesis
      obtain ⟨lexeme, after⟩ := result
      rw [Lexeme.replaceShielded]
      simp only at cut inductionHypothesis ⊢
      cases cut with
      | blockComment =>
          exact (Quiet.format_append_iff index _).trans (inductionHypothesis (index + 1))
      | stringLiteral =>
          exact (Quiet.format_append_iff index _).trans (inductionHypothesis (index + 1))
      | charLiteral =>
          exact (Quiet.format_append_iff index _).trans (inductionHypothesis (index + 1))
      | @lineComment body after oneLine ends =>
          have line : Lexeme.next '/' ('/' :: (body ++
              Lexeme.replaceShielded .generic index (Lexeme.ofText after))) =
              (.lineComment ('/' :: '/' :: body),
                Lexeme.replaceShielded .generic index (Lexeme.ofText after)) := by
            rw [Lexeme.next_slash_slash,
              Lexeme.lineRest_append oneLine (Lexeme.replaceShielded_lineEnd index ends)]
          exact (Quiet.cons_iff line rfl).trans (inductionHypothesis index)
      | other noLine =>
          refine (quiet_cons_replaceShielded_iff step noLine index).trans ?_
          rw [inductionHypothesis, closesLate]
          simp

/-- Where nothing is captured the text stays as it is. -/
theorem replaceShielded_of_filter {lexemes : List Lexeme}
    (none : lexemes.filter Lexeme.isShielded = []) (kind : MarkerKind) (index : Nat) :
    Lexeme.replaceShielded kind index lexemes = lexemes.flatMap Lexeme.text := by
  induction lexemes with
  | nil => rfl
  | cons lexeme lexemes inductionHypothesis =>
      have kept : lexeme.isShielded = false := by
        simpa using List.filter_eq_nil_iff.mp none lexeme List.mem_cons_self
      rw [List.filter_cons_of_neg (by simp [kept])] at none
      rw [Lexeme.replaceShielded, if_neg (by simp [kept]), inductionHypothesis none,
        List.flatMap_cons]

/-- Capturing from a text changes neither the text nor the table exactly when the text
is quiet. -/
theorem shieldLiterals_eq_self_iff (text : Text) (table : FragmentTable) :
    shieldLiterals text table = (text, table) ↔ Quiet text := by
  constructor
  · intro unchanged
    have fragments := congrArg (FragmentTable.fragments ∘ Prod.snd) unchanged
    exact List.map_eq_nil_iff.mp (List.append_right_eq_self.mp fragments)
  · intro quiet
    unfold Quiet at quiet
    simp only [shieldLiterals, replaceShielded_of_filter quiet, Lexeme.flatMap_text_ofText, quiet]
    simp [FragmentTable.pushAll]

/-! ### The ampersands of a shielded text -/

/-- What follows an ampersand is still a marker's digits and full stop when other
markers are put in. -/
theorem opensGeneric_replaceShielded {rest : Text} (opens : opensGeneric rest = true)
    (index : Nat) :
    opensGeneric (Lexeme.replaceShielded .generic index (Lexeme.ofText rest)) = true := by
  obtain ⟨digits, after, valid, rfl⟩ := opensGeneric_iff.mp opens
  have lexemes := Lexeme.ofText_marker valid after
  rw [Lexeme.ofText_cons, Lexeme.next_eq_other rfl, List.map_cons, List.cons_append] at lexemes
  rw [(List.cons.inj lexemes).2, Lexeme.replaceShielded_others, List.append_assoc]
  exact opensGeneric_iff.mpr ⟨digits, _, valid, rfl⟩

/-- No marker reaches across the end of a line. -/
theorem Boundary.of_lineEnd {after : Text} (ends : after = [] ∨ ∃ more, after = '\n' :: more)
    (left : Text) : Boundary left after := by
  rcases ends with rfl | ⟨more, rfl⟩
  · exact .of_nil left
  · exact .of_head (by decide) (by decide) left more

/-- Putting in markers leaves every ampersand at the head of a marker. -/
theorem shieldAmpersands_replaceShielded {text : Text} (kept : shieldAmpersands text = text)
    (index : Nat) :
    shieldAmpersands (Lexeme.replaceShielded .generic index (Lexeme.ofText text)) =
      Lexeme.replaceShielded .generic index (Lexeme.ofText text) := by
  fun_induction Lexeme.ofText text generalizing index with
  | case1 => rfl
  | case2 c rest inductionHypothesis =>
      have cut := Lexeme.cut_next c rest
      have whole := Lexeme.text_next_append c rest
      generalize Lexeme.next c rest = result at cut whole inductionHypothesis
      obtain ⟨lexeme, after⟩ := result
      simp only at cut whole inductionHypothesis ⊢
      have keptAfter : shieldAmpersands after = after := by
        rw [← whole] at kept
        exact shieldAmpersands_eq_self_of_append kept
      have tail := inductionHypothesis keptAfter
      have captured : shieldAmpersands (MarkerKind.generic.format index ++
            Lexeme.replaceShielded .generic (index + 1) (Lexeme.ofText after)) =
          MarkerKind.generic.format index ++
            Lexeme.replaceShielded .generic (index + 1) (Lexeme.ofText after) := by
        have marker := shieldAmpersands_marker_append
          (HeaderBook.Marker.valid_ofIndex .generic index)
          (Lexeme.replaceShielded .generic (index + 1) (Lexeme.ofText after))
        rw [tail] at marker
        exact marker
      rw [Lexeme.replaceShielded]
      cases cut with
      | blockComment => exact captured
      | stringLiteral => exact captured
      | charLiteral => exact captured
      | @lineComment body after oneLine ends =>
          have line : shieldAmpersands ('/' :: '/' :: body) = '/' :: '/' :: body := by
            rw [← whole, Lexeme.text, shieldAmpersands_append (.of_lineEnd ends _),
              keptAfter] at kept
            exact List.append_cancel_right kept
          rw [if_neg (by simp [Lexeme.isShielded]), Lexeme.text,
            shieldAmpersands_append (.of_lineEnd (Lexeme.replaceShielded_lineEnd index ends) _),
            line, tail]
      | other noLine =>
          rw [if_neg (by simp [Lexeme.isShielded]), Lexeme.text, List.singleton_append,
            shieldAmpersands_cons_eq_self_iff]
          have opens := ((shieldAmpersands_cons_eq_self_iff c rest).mp kept).1
          exact ⟨fun ampersand => opensGeneric_replaceShielded (opens ampersand) index, tail index⟩

/-! ### One-line comments -/

namespace Reading

/-- Another literal's opening or closing quote closes the reading or is ordinary. -/
theorem step_isQuote {c : Char} (quotes : isQuote c = true) (quote : Char) :
    inside.step quote c = closed ∨ inside.step quote c = inside := by
  by_cases same : c = quote
  · exact .inl (by simp [step, same])
  · refine .inr ?_
    rcases eq_of_isQuote quotes with rfl | rfl <;> simp [step, same]

/-- A literal's body is read to its end, or closes the reading on the way. -/
theorem read_literalRest? {opening quote : Char} (opens : isQuote opening = true)
    (quotes : isQuote quote = true) {text body after : Text}
    (found : Lexeme.literalRest? opening text = some (body, after)) :
    inside.read quote body = closed ∨ inside.read quote body = inside := by
  have notBackslash : '\\' ≠ quote := by
    rintro rfl
    exact absurd quotes (by decide)
  fun_induction Lexeme.literalRest? opening text generalizing body after with
  | case1 => simp at found
  | case2 rest =>
      simp only [Option.some.injEq, Prod.mk.injEq] at found
      rw [← found.1]
      exact step_isQuote opens quote
  | case3 => simp at found
  | case4 escaped rest _ inductionHypothesis =>
      obtain ⟨⟨inner, after'⟩, tail, equal⟩ := Option.map_eq_some_iff.mp found
      have steps : (inside.step quote '\\').step quote escaped = inside := by
        simp [step, notBackslash]
      rw [← (Prod.mk.inj equal).1, read_cons, read_cons, steps]
      exact inductionHypothesis tail
  | case5 => simp at found
  | case6 c rest _ notEscape notNewline inductionHypothesis =>
      obtain ⟨⟨inner, after'⟩, tail, equal⟩ := Option.map_eq_some_iff.mp found
      rw [← (Prod.mk.inj equal).1, read_cons]
      by_cases same : c = quote
      · simp [step, same]
      · have stays : inside.step quote c = inside := by
          simp [step, same, notEscape, notNewline]
        rw [stays]
        exact inductionHypothesis tail

/-- A literal is stepped over or closes the reading. -/
theorem read_literal {opening quote : Char} (opens : isQuote opening = true)
    (quotes : isQuote quote = true) {text body after : Text}
    (found : Lexeme.literalRest? opening text = some (body, after)) (reading : Reading) :
    reading.read quote (opening :: body) = closed ∨
      reading.read quote (opening :: body) = reading.pass := by
  have body := read_literalRest? opens quotes found
  rw [read_cons]
  cases reading with
  | inside =>
      rcases step_isQuote opens quote with closes | stays
      · exact .inl (by rw [closes, read_closed])
      · rwa [stays]
  | escaping => exact body
  | closed => exact .inl (read_closed quote _)
  | broken => exact .inr (read_broken quote _)

/-- Only a line break breaks a reading off. -/
theorem read_ne_broken {quote : Char} {text : Text} (oneLine : '\n' ∉ text) {reading : Reading}
    (unbroken : reading ≠ broken) : reading.read quote text ≠ broken := by
  induction text generalizing reading with
  | nil => exact unbroken
  | cons c rest inductionHypothesis =>
      rw [List.mem_cons, not_or] at oneLine
      refine inductionHypothesis oneLine.2 ?_
      cases reading with
      | inside =>
          simp only [step, Ne.symm oneLine.1, if_false]
          split
          · decide
          · split <;> decide
      | escaping => exact Reading.noConfusion
      | closed => exact Reading.noConfusion
      | broken => exact absurd rfl unbroken

/-- A block comment of one line is stepped over or closes the reading. -/
theorem read_blockComment {quote : Char} (quotes : isQuote quote = true) {front : Text}
    (oneLine : '\n' ∉ front ++ ['/']) (reading : Reading) :
    reading.read quote (front ++ ['/']) = closed ∨
      reading.read quote (front ++ ['/']) = reading.pass := by
  have notSlash : '/' ≠ quote := by
    rintro rfl
    exact absurd quotes (by decide)
  by_cases settled : reading = closed ∨ reading = broken
  · rcases settled with rfl | rfl
    · exact .inl (read_closed quote _)
    · exact .inr (read_broken quote _)
  · have unbroken : reading.read quote front ≠ broken :=
      read_ne_broken (fun member => oneLine (List.mem_append_left _ member)) fun is => settled (.inr is)
    have passes : reading.pass = inside := by
      cases reading <;> simp_all [pass]
    rw [read_append, read_cons, read_nil, passes]
    cases last : reading.read quote front with
    | inside => exact .inr (by simp [step, notSlash])
    | escaping => exact .inr rfl
    | closed => exact .inl rfl
    | broken => exact absurd last unbroken

/-- A captured lexeme is stepped over or closes the reading, unless it is a block
comment of several lines. -/
theorem read_captured {quote : Char} (quotes : isQuote quote = true) {c : Char}
    {rest after : Text} {lexeme : Lexeme} (cut : Lexeme.Cut c rest lexeme after)
    (captured : lexeme.isShielded = true)
    (oneLine : ∀ comment, lexeme = .blockComment comment → '\n' ∉ comment) (reading : Reading) :
    reading.read quote lexeme.text = closed ∨ reading.read quote lexeme.text = reading.pass := by
  cases cut with
  | lineComment => simp [Lexeme.isShielded] at captured
  | other => simp [Lexeme.isShielded] at captured
  | stringLiteral found => exact read_literal rfl quotes found reading
  | charLiteral found => exact read_literal rfl quotes found reading
  | blockComment found =>
      obtain ⟨inner, rfl⟩ := Lexeme.exists_concat_of_blockRest? found
      have front : '/' :: '*' :: (inner ++ ['*', '/']) = ('/' :: '*' :: (inner ++ ['*'])) ++ ['/'] := by
        simp
      have free := oneLine _ rfl
      rw [Lexeme.text, front]
      rw [front] at free
      exact read_blockComment quotes free reading

/-- Where no block comment has several lines, reading a text closes if stepping over
its captured lexemes does. -/
theorem read_eq_skim {quote : Char} (quotes : isQuote quote = true) {text : Text}
    (oneLine : ∀ comment, .blockComment comment ∈ Lexeme.ofText text → '\n' ∉ comment)
    (reading : Reading) :
    reading.read quote text = closed ∨
      reading.read quote text = reading.skim quote (Lexeme.ofText text) := by
  fun_induction Lexeme.ofText text generalizing reading with
  | case1 => exact .inr rfl
  | case2 c rest inductionHypothesis =>
      have tail := inductionHypothesis fun comment member =>
        oneLine comment (List.mem_cons_of_mem _ member)
      rw [← Lexeme.text_next_append c rest, read_append, skim, List.foldl_cons, skimLexeme]
      split
      next captured =>
        rcases read_captured quotes (Lexeme.cut_next c rest) captured
            (fun comment is => oneLine comment (by simp [is])) reading with closes | passes
        · exact .inl (by rw [closes, read_closed])
        · rw [passes]
          exact tail _
      · exact tail _

end Reading

/-- Where no block comment after an open quote has several lines, no quote is closed
late: it would have been closed at once. -/
theorem closesLate_of_oneLine {text : Text}
    (oneLine : ∀ before quote after comment,
      Lexeme.ofText text = before ++ .other quote :: after → isQuote quote = true →
        .blockComment comment ∈ after → '\n' ∉ comment) :
    closesLate (Lexeme.ofText text) = false := by
  fun_induction Lexeme.ofText text with
  | case1 => rfl
  | case2 c rest inductionHypothesis =>
      have tail := inductionHypothesis fun before quote after comment split =>
        oneLine ((Lexeme.next c rest).1 :: before) quote after comment (by rw [split]; rfl)
      have cut := Lexeme.cut_next c rest
      generalize step : Lexeme.next c rest = result at cut oneLine tail
      obtain ⟨lexeme, after⟩ := result
      cases cut with
      | blockComment => exact tail
      | stringLiteral => exact tail
      | charLiteral => exact tail
      | lineComment => exact tail
      | other =>
          simp only at tail oneLine ⊢
          rw [closesLate, tail, Bool.or_false, Bool.and_eq_false_imp]
          intro quotes
          rcases Lexeme.next_of_isQuote quotes after with ⟨_, captured⟩ | ⟨opened, _⟩
          · rw [step] at captured
            exact absurd captured (by simp [Lexeme.isShielded])
          · have skims := Reading.read_eq_skim quotes
              (fun comment => oneLine [] c _ comment rfl quotes) .inside
            simpa [skims.resolve_left opened] using opened

/-! ### Shielding twice -/

/-- A shielded text is shielded again without any change exactly when none of its open
quotes is closed once the captured literals and comments are stepped over. That is so
in particular where no block comment after an open quote has several lines. -/
theorem shield_shield (source : Text) :
    (shield (shield source).1 = ((shield source).1, FragmentTable.withAmpersand) ↔
      closesLate (Lexeme.ofText source) = false) ∧
    ((∀ before quote after comment,
        Lexeme.ofText source = before ++ .other quote :: after → isQuote quote = true →
          .blockComment comment ∈ after → '\n' ∉ comment) →
      shield (shield source).1 = ((shield source).1, FragmentTable.withAmpersand)) := by
  have again : shield (shield source).1 = ((shield source).1, FragmentTable.withAmpersand) ↔
      closesLate (Lexeme.ofText source) = false := by
    have kept : shieldAmpersands (shield source).1 = (shield source).1 :=
      shieldAmpersands_replaceShielded (shieldAmpersands_shieldAmpersands source) 1
    rw [shield, kept, shieldLiterals_eq_self_iff, ← closesLate_shieldAll,
      ← Lexeme.ofText_shieldAmpersands]
    exact quiet_replaceShielded_iff 1 (shieldAmpersands source)
  exact ⟨again, fun oneLine => again.mpr (closesLate_of_oneLine oneLine)⟩

/-- A quote that a line break in a block comment leaves open, and its mate after the
comment. -/
def dividedQuote : Text :=
  ['"', '/', '*', '\n', '*', '/', '"']

/-- The comment's marker has no line break, and the second pass takes all for one
literal. -/
theorem shield_shield_dividedQuote :
    (shield dividedQuote).1 = ['"', '&', '1', '.', '"'] ∧
      shield (shield dividedQuote).1 =
        (['&', '1', '.'],
          { kind := .generic, fragments := [['&'], ['"', '&', '1', '.', '"']] }) ∧
      shield (shield dividedQuote).1 ≠ ((shield dividedQuote).1, FragmentTable.withAmpersand) := by
  decide +kernel

end HeaderBook.Source
