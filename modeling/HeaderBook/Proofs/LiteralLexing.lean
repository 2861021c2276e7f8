import HeaderBook.Proofs.SecondShielding
import HeaderBook.Proofs.Portions

/-!
# The division that shielding makes

`Construct` gives the grammar of what is shielded, without reference to the scan:
string literals, character literals and block comments. A division is `Lexed`
when every fragment is a construct that stands outside line comments, and when
outside line comments no construct begins with a character of a gap. What a line
comment is depends on the division itself: a `//` inside a fragment opens none.

Every text has exactly one such division, `lexed_iff`, and shielding lifts its
fragments. The proof follows the scan: each of its steps takes the only portions
with which a lexed division can begin.
-/

namespace HeaderBook.Source

open Portion (whole fragments marked Everywhere everywhere_nil everywhere_cons everywhere_append
  everywhere_congr)

/-- What may stand between two quotes: a backslash with any character after it,
and characters other than the quote, the backslash and the line break. -/
inductive LiteralBody (quote : Char) : Text → Prop where
  | empty : LiteralBody quote []
  | escape {escaped : Char} {body : Text} (rest : LiteralBody quote body) :
      LiteralBody quote ('\\' :: escaped :: body)
  | plain {c : Char} {body : Text} (notQuote : c ≠ quote) (notBackslash : c ≠ '\\')
      (notNewline : c ≠ '\n') (rest : LiteralBody quote body) : LiteralBody quote (c :: body)

/-- A complete literal or block comment. -/
inductive Construct : Text → Prop where
  | literal {quote : Char} {body : Text} (isQuote : quote = '"' ∨ quote = '\'')
      (between : LiteralBody quote body) : Construct (quote :: (body ++ [quote]))
  /-- A block comment holds no `*/` but the one that ends it. -/
  | blockComment {body : Text} (first : ¬ ['*', '/'] <:+: body ++ ['*']) :
      Construct ('/' :: '*' :: (body ++ ['*', '/']))

/-- A `//` begins with a character of a gap here. -/
def OpensLine (portions : List Portion) : Prop :=
  ∃ rest, portions = .kept '/' :: rest ∧ (whole rest).head? = some '/'

/-- The place between `left` and `right` lies in a line comment: a `//` opens
before it, or here, and the line does not end in between. -/
def InLineComment (left right : List Portion) : Prop :=
  ∃ before line, left = before ++ line ∧ OpensLine (line ++ right) ∧ '\n' ∉ whole line

/-- How a portion fits between others. -/
def LexemeFits (left : List Portion) : Portion → List Portion → Prop
  | .lifted fragment, right =>
      Construct fragment ∧ ¬ InLineComment left (.lifted fragment :: right)
  | .kept c, right =>
      ¬ InLineComment left (.kept c :: right) →
        ∀ fragment, Construct fragment → ¬ fragment <+: c :: whole right

/-- The division of a text into constructs and gaps. -/
def Lexed (portions : List Portion) : Prop :=
  Everywhere LexemeFits portions

/-! ### The constructs and the scan -/

namespace Lexeme

/-- A literal is read to its end exactly when the grammar has one. -/
theorem literalRest?_eq_some_iff {quote : Char} (notBackslash : '\\' ≠ quote)
    {text body after : Text} :
    literalRest? quote text = some (body, after) ↔
      ∃ inner, LiteralBody quote inner ∧ body = inner ++ [quote] ∧ text = body ++ after := by
  constructor
  · intro found
    have whole := append_of_literalRest? found
    suffices between : ∃ inner, LiteralBody quote inner ∧ body = inner ++ [quote] by
      obtain ⟨inner, isBody, ends⟩ := between
      exact ⟨inner, isBody, ends, whole.symm⟩
    clear whole
    fun_induction literalRest? quote text generalizing body after with
    | case1 => cases found
    | case2 rest =>
        obtain ⟨rfl, rfl⟩ := Prod.mk.inj (Option.some.inj found)
        exact ⟨[], .empty, rfl⟩
    | case3 => cases found
    | case4 escaped rest _ inductionHypothesis =>
        obtain ⟨cut, tail, equal⟩ := Option.map_eq_some_iff.mp found
        obtain ⟨rfl, rfl⟩ := Prod.mk.inj equal
        obtain ⟨inner, isBody, ends⟩ := inductionHypothesis tail
        exact ⟨'\\' :: escaped :: inner, .escape isBody, by rw [ends]; rfl⟩
    | case5 => cases found
    | case6 c rest notQuote notBackslash notNewline inductionHypothesis =>
        obtain ⟨cut, tail, equal⟩ := Option.map_eq_some_iff.mp found
        obtain ⟨rfl, rfl⟩ := Prod.mk.inj equal
        obtain ⟨inner, isBody, ends⟩ := inductionHypothesis tail
        exact ⟨c :: inner, .plain notQuote notBackslash notNewline isBody, by rw [ends]; rfl⟩
  · rintro ⟨inner, isBody, rfl, rfl⟩
    induction isBody with
    | empty => exact literalRest?_quote quote after
    | escape _ inductionHypothesis =>
        rw [List.cons_append, List.cons_append, List.cons_append, List.cons_append,
          literalRest?_escape notBackslash, inductionHypothesis]
        rfl
    | plain notQuote notBackslash notNewline _ inductionHypothesis =>
        rw [List.cons_append, List.cons_append,
          literalRest?_plain notQuote notBackslash notNewline, inductionHypothesis]
        rfl

/-- A block comment is read to its end exactly when the grammar has one. -/
theorem blockRest?_eq_some_iff {text body after : Text} :
    blockRest? text = some (body, after) ↔
      ∃ inner, ¬ ['*', '/'] <:+: inner ++ ['*'] ∧ body = inner ++ ['*', '/'] ∧
        text = body ++ after := by
  constructor
  · intro found
    obtain ⟨inner, rfl⟩ := exists_concat_of_blockRest? found
    refine ⟨inner, fun early => ?_, rfl, (append_of_blockRest? found).symm⟩
    have whole := blockRest?_append found []
    -- An earlier end would be found first.
    cases closed : blockRest? (inner ++ ['*']) with
    | none => exact (blockRest?_eq_none_iff _).mp closed early
    | some cut =>
        have longer := append_of_blockRest? closed
        have again := blockRest?_append closed (cut.2 ++ ['/'])
        rw [← List.append_assoc, longer, List.append_assoc, List.singleton_append] at again
        rw [List.append_nil, again] at whole
        have lengths := congrArg List.length (Prod.mk.inj (Option.some.inj whole)).2
        simp at lengths
  · rintro ⟨inner, first, rfl, rfl⟩
    induction inner with
    | nil => rfl
    | cons c inner inductionHypothesis =>
        rw [List.cons_append, List.infix_cons_iff, not_or] at first
        have goesOn : c = '*' → (inner ++ ['*', '/'] ++ after).head? ≠ some '/' := by
          rintro rfl slash
          cases inner with
          | nil => cases slash
          | cons d inner =>
              obtain rfl : d = '/' := by simpa using slash
              exact first.1 ⟨inner ++ ['*'], rfl⟩
        rw [List.cons_append, List.cons_append, blockRest?_plain goesOn,
          inductionHypothesis first.2]
        rfl

/-- A construct begins where the scan takes a lexeme to be shielded, and is that
lexeme. -/
theorem construct_prefix_iff {fragment : Text} {c : Char} {rest : Text} :
    Construct fragment ∧ fragment <+: c :: rest ↔
      (next c rest).1.isShielded = true ∧ (next c rest).1.text = fragment := by
  constructor
  · rintro ⟨construct, more, equal⟩
    cases construct with
    | @literal quote body isQuote between =>
        obtain ⟨rfl, rfl⟩ := List.cons.inj equal
        rcases isQuote with rfl | rfl
        · rw [List.append_eq, next_quote, (literalRest?_eq_some_iff (by decide)).mpr
            ⟨body, between, rfl, rfl⟩]
          exact ⟨rfl, rfl⟩
        · rw [List.append_eq, next_apostrophe,
            (literalRest?_eq_some_iff (by decide)).mpr ⟨body, between, rfl, rfl⟩]
          exact ⟨rfl, rfl⟩
    | @blockComment body first =>
        obtain ⟨rfl, rfl⟩ := List.cons.inj equal
        rw [List.append_eq, List.cons_append, next_slash_star,
          blockRest?_eq_some_iff.mpr ⟨body, first, rfl, rfl⟩]
        exact ⟨rfl, rfl⟩
  · rintro ⟨shielded, rfl⟩
    refine ⟨?_, ⟨(next c rest).2, text_next_append c rest⟩⟩
    have cut := cut_next c rest
    revert shielded cut
    generalize (next c rest).1 = lexeme
    generalize (next c rest).2 = after
    intro shielded cut
    cases cut with
    | lineComment => cases shielded
    | blockComment found =>
        obtain ⟨inner, first, rfl, _⟩ := blockRest?_eq_some_iff.mp found
        exact .blockComment first
    | stringLiteral found =>
        obtain ⟨inner, between, rfl, _⟩ :=
          (literalRest?_eq_some_iff (by decide)).mp found
        exact .literal (.inl rfl) between
    | charLiteral found =>
        obtain ⟨inner, between, rfl, _⟩ :=
          (literalRest?_eq_some_iff (by decide)).mp found
        exact .literal (.inr rfl) between
    | other => cases shielded

end Lexeme

/-- A construct has a first character, and it is not a line break. -/
theorem Construct.exists_cons {fragment : Text} (construct : Construct fragment) :
    ∃ c rest, fragment = c :: rest ∧ c ≠ '\n' := by
  cases construct with
  | literal isQuote =>
      refine ⟨_, _, rfl, ?_⟩
      rcases isQuote with rfl | rfl <;> decide
  | blockComment => exact ⟨_, _, rfl, by decide⟩

/-- What a division lifts out is a construct. -/
theorem Lexed.construct {portions : List Portion} (lexed : Lexed portions) {fragment : Text}
    (member : .lifted fragment ∈ portions) : Construct fragment := by
  obtain ⟨left, right, parts⟩ := List.append_of_mem member
  exact (lexed left (.lifted fragment) right parts).1

/-! ### Line comments of a division -/

/-- At the beginning of a text only a `//` that opens here makes a line comment. -/
theorem inLineComment_nil {right : List Portion} : InLineComment [] right ↔ OpensLine right := by
  constructor
  · rintro ⟨before, line, empty, opens, _⟩
    obtain ⟨rfl, rfl⟩ := List.append_eq_nil_iff.mp empty.symm
    exact opens
  · intro opens
    exact ⟨[], [], rfl, opens, by simp⟩

/-- A line comment opens with the first portion or later. -/
theorem inLineComment_cons {portion : Portion} {left right : List Portion} :
    InLineComment (portion :: left) right ↔
      OpensLine (portion :: left ++ right) ∧ '\n' ∉ whole (portion :: left) ∨
        InLineComment left right := by
  constructor
  · rintro ⟨before, line, equal, opens, oneLine⟩
    cases before with
    | nil =>
        obtain rfl : portion :: left = line := equal
        exact .inl ⟨opens, oneLine⟩
    | cons first before =>
        obtain ⟨rfl, rfl⟩ := List.cons.inj equal
        exact .inr ⟨before, line, rfl, opens, oneLine⟩
  · rintro (⟨opens, oneLine⟩ | ⟨before, line, rfl, opens, oneLine⟩)
    · exact ⟨[], portion :: left, rfl, opens, oneLine⟩
    · exact ⟨portion :: before, line, rfl, opens, oneLine⟩

/-- A portion that opens no line comment does not decide whether a later place lies in one. -/
theorem inLineComment_cons_of_not_opens {portion : Portion} {left right : List Portion}
    (noLine : ¬ OpensLine (portion :: left ++ right)) :
    InLineComment (portion :: left) right ↔ InLineComment left right := by
  rw [inLineComment_cons]
  exact or_iff_right fun opened => noLine opened.1

/-- A line comment ends with its line. -/
theorem inLineComment_after_newline {line left right : List Portion} :
    InLineComment (line ++ .kept '\n' :: left) right ↔ InLineComment left right := by
  induction line with
  | nil =>
      refine inLineComment_cons_of_not_opens ?_
      rintro ⟨rest, equal, _⟩
      simp at equal
  | cons portion line inductionHypothesis =>
      rw [List.cons_append, inLineComment_cons, inductionHypothesis]
      exact or_iff_right fun opened => opened.2 (by simp [whole, Portion.text])

/-- Whether a portion fits depends on what stands before it only through line comments. -/
theorem lexemeFits_congr {left left' right : List Portion} {portion : Portion}
    (same : InLineComment left (portion :: right) ↔ InLineComment left' (portion :: right)) :
    LexemeFits left portion right ↔ LexemeFits left' portion right := by
  cases portion with
  | kept c => rw [LexemeFits, LexemeFits, same]
  | lifted fragment => rw [LexemeFits, LexemeFits, same]

/-! ### One step of the scan -/

/-- A portion that opens no line comment does not matter to what follows it. -/
theorem lexed_cons_iff {portion : Portion} {rest : List Portion}
    (noLine : ¬ OpensLine (portion :: rest)) :
    Lexed (portion :: rest) ↔ LexemeFits [] portion rest ∧ Lexed rest := by
  rw [Lexed, everywhere_cons]
  refine and_congr_right fun _ => everywhere_congr fun left next right parts => ?_
  refine lexemeFits_congr (inLineComment_cons_of_not_opens ?_)
  rwa [List.cons_append, ← parts]

/-- A construct that is lifted out opens no line comment. -/
theorem not_opensLine_lifted {fragment : Text} {rest : List Portion} :
    ¬ OpensLine (.lifted fragment :: rest) := by
  rintro ⟨more, equal, _⟩
  simp at equal

/-- A character opens no line comment unless it and the next are slashes. -/
theorem not_opensLine_of_head {c : Char} {rest : List Portion}
    (noLine : c = '/' → (whole rest).head? ≠ some '/') : ¬ OpensLine (.kept c :: rest) := by
  rintro ⟨more, equal, head⟩
  obtain ⟨same, rfl⟩ := List.cons.inj equal
  exact noLine (Portion.kept.inj same) head

/-- Where a construct begins, it is lifted. -/
theorem lexed_lifted_iff {c : Char} {rest : Text}
    (shielded : (Lexeme.next c rest).1.isShielded = true) {portions : List Portion} :
    whole portions = c :: rest ∧ Lexed portions ↔
      ∃ later, portions = .lifted (Lexeme.next c rest).1.text :: later ∧
        whole later = (Lexeme.next c rest).2 ∧ Lexed later := by
  obtain ⟨construct, begins⟩ := Lexeme.construct_prefix_iff.mpr ⟨shielded, rfl⟩
  have notLine : ∀ line, c :: rest ≠ '/' :: '/' :: line := by
    intro line equal
    obtain ⟨rfl, rfl⟩ := List.cons.inj equal
    rw [Lexeme.next_slash_slash] at shielded
    cases shielded
  constructor
  · rintro ⟨equal, lexed⟩
    cases portions with
    | nil => cases equal
    | cons portion later =>
        cases portion with
        | kept d =>
            rw [Portion.whole_kept] at equal
            obtain ⟨rfl, rfl⟩ := List.cons.inj equal
            have fits := (everywhere_cons.mp lexed).1
            refine absurd begins (fits ?_ _ construct)
            rw [inLineComment_nil]
            refine not_opensLine_of_head fun slash head => ?_
            obtain ⟨line, follows⟩ := List.head?_eq_some_iff.mp head
            exact notLine line (by rw [slash, follows])
        | lifted fragment =>
            obtain ⟨⟨isConstruct, _⟩, tail⟩ := (lexed_cons_iff not_opensLine_lifted).mp lexed
            have same := (Lexeme.construct_prefix_iff.mp
              ⟨isConstruct, ⟨whole later, equal⟩⟩).2
            have texts := Lexeme.text_next_append c rest
            rw [← equal, Portion.whole_lifted, ← same] at texts
            exact ⟨later, by rw [same], (List.append_cancel_left texts).symm, tail⟩
  · rintro ⟨later, rfl, behind, tail⟩
    refine ⟨by rw [Portion.whole_lifted, behind, Lexeme.text_next_append], ?_⟩
    refine (lexed_cons_iff not_opensLine_lifted).mpr ⟨⟨construct, ?_⟩, tail⟩
    rw [inLineComment_nil]
    exact not_opensLine_lifted

/-- Where neither a construct nor a line comment begins, one character is kept. -/
theorem lexed_kept_iff {c : Char} {rest : Text} (noLine : c = '/' → rest.head? ≠ some '/')
    (unshielded : (Lexeme.next c rest).1.isShielded = false) {portions : List Portion} :
    whole portions = c :: rest ∧ Lexed portions ↔
      ∃ later, portions = .kept c :: later ∧ whole later = rest ∧ Lexed later := by
  have nothing : ∀ fragment, Construct fragment → ¬ fragment <+: c :: rest := by
    intro fragment construct begins
    have shielded := (Lexeme.construct_prefix_iff.mp ⟨construct, begins⟩).1
    rw [unshielded] at shielded
    cases shielded
  constructor
  · rintro ⟨equal, lexed⟩
    cases portions with
    | nil => cases equal
    | cons portion later =>
        cases portion with
        | kept d =>
            rw [Portion.whole_kept] at equal
            obtain ⟨rfl, rfl⟩ := List.cons.inj equal
            exact ⟨later, rfl, rfl, ((lexed_cons_iff (not_opensLine_of_head noLine)).mp lexed).2⟩
        | lifted fragment =>
            have fits := (everywhere_cons.mp lexed).1
            exact absurd ⟨whole later, equal⟩ (nothing fragment fits.1)
  · rintro ⟨later, rfl, rfl, tail⟩
    refine ⟨rfl, (lexed_cons_iff (not_opensLine_of_head noLine)).mpr ⟨?_, tail⟩⟩
    exact fun _ => nothing

/-! ### A line comment -/

/-- A place behind `//` on the same line lies in a line comment. -/
theorem inLineComment_line {line : Text} {right : List Portion}
    (opens : OpensLine (line.map .kept ++ right)) (oneLine : '\n' ∉ line) :
    InLineComment (line.map .kept) right :=
  ⟨[], line.map .kept, rfl, opens, by simpa using oneLine⟩

/-- Nothing is lifted out of a line comment. -/
theorem exists_kept_of_line {line body after : Text} {portions : List Portion}
    (opens : OpensLine (line.map .kept ++ portions)) (oneLine : '\n' ∉ line ++ body)
    (fits : Everywhere (fun left => LexemeFits (line.map .kept ++ left)) portions)
    (equal : whole portions = body ++ after) :
    ∃ later, portions = body.map .kept ++ later ∧ whole later = after := by
  induction body generalizing line portions with
  | nil => exact ⟨portions, rfl, equal⟩
  | cons c body inductionHypothesis =>
      obtain ⟨lineOnly, _⟩ := not_or.mp (mt List.mem_append.mpr oneLine)
      cases portions with
      | nil => cases equal
      | cons portion rest =>
          obtain ⟨here, behind⟩ := everywhere_cons.mp fits
          cases portion with
          | kept d =>
              rw [Portion.whole_kept, List.cons_append] at equal
              obtain ⟨rfl, tailEqual⟩ := List.cons.inj equal
              have regrouped : ∀ left : List Portion,
                  line.map .kept ++ .kept d :: left = (line ++ [d]).map .kept ++ left := by simp
              simp only [regrouped] at behind opens
              obtain ⟨later, rfl, after⟩ := inductionHypothesis opens (by simpa using oneLine)
                behind tailEqual
              exact ⟨later, rfl, after⟩
          | lifted fragment =>
              rw [List.append_nil] at here
              exact absurd (inLineComment_line opens lineOnly) here.2

/-- No construct begins with a line break. -/
theorem lexemeFits_newline {left right : List Portion} : LexemeFits left (.kept '\n') right := by
  rintro _ fragment construct ⟨more, equal⟩
  obtain ⟨c, rest, rfl, different⟩ := construct.exists_cons
  exact different (List.cons.inj equal).1

/-- A line comment with the end of its line behind it does not matter to what follows. -/
theorem lexed_line_append {line : Text} {later : List Portion}
    (opens : OpensLine (line.map .kept ++ later)) (oneLine : '\n' ∉ line)
    (ends : later = [] ∨ ∃ more, later = .kept '\n' :: more) :
    Lexed (line.map .kept ++ later) ↔ Lexed later := by
  have inside : Everywhere (fun left portion right => LexemeFits left portion (right ++ later))
      (line.map .kept) := by
    intro left portion right parts
    obtain ⟨before, others, rfl, rfl, rest⟩ := List.map_eq_append_iff.mp parts
    obtain ⟨c, after, rfl, rfl, rfl⟩ := List.map_eq_cons_iff.mp rest
    obtain ⟨beforeOnly, _⟩ := not_or.mp (mt List.mem_append.mpr oneLine)
    refine fun outside => absurd (inLineComment_line ?_ beforeOnly) outside
    simpa using opens
  rw [Lexed, everywhere_append, and_iff_right inside]
  rcases ends with rfl | ⟨more, rfl⟩
  · exact iff_of_true everywhere_nil everywhere_nil
  · rw [Lexed, everywhere_cons, everywhere_cons, and_iff_right lexemeFits_newline,
      and_iff_right lexemeFits_newline]
    refine everywhere_congr fun left portion right _ => lexemeFits_congr ?_
    rw [inLineComment_after_newline]
    exact inLineComment_after_newline.symm.trans (by rw [List.nil_append])

/-- What stands at the end of a line comment is kept. -/
theorem eq_nil_or_newline {later : List Portion} {after : Text}
    (constructs : ∀ fragment, .lifted fragment ∈ later → Construct fragment)
    (equal : whole later = after) (ends : after = [] ∨ ∃ more, after = '\n' :: more) :
    later = [] ∨ ∃ more, later = .kept '\n' :: more := by
  cases later with
  | nil => exact .inl rfl
  | cons portion rest =>
      cases portion with
      | kept c =>
          rw [Portion.whole_kept] at equal
          rcases ends with rfl | ⟨more, rfl⟩
          · cases equal
          · exact .inr ⟨rest, by rw [(List.cons.inj equal).1]⟩
      | lifted fragment =>
          obtain ⟨c, tail, rfl, different⟩ := (constructs fragment List.mem_cons_self).exists_cons
          rw [Portion.whole_lifted, List.cons_append] at equal
          rcases ends with rfl | ⟨more, rfl⟩
          · cases equal
          · exact absurd (List.cons.inj equal).1 different

/-- Where a line comment begins, it is kept to its end. -/
theorem lexed_line_iff {body after : Text} (oneLine : '\n' ∉ body)
    (ends : after = [] ∨ ∃ more, after = '\n' :: more) {portions : List Portion} :
    whole portions = '/' :: '/' :: (body ++ after) ∧ Lexed portions ↔
      ∃ later, portions = ('/' :: '/' :: body).map .kept ++ later ∧
        whole later = after ∧ Lexed later := by
  have lineOnly : '\n' ∉ '/' :: '/' :: body := by simpa using oneLine
  have opensLine : ∀ later, OpensLine (('/' :: '/' :: body).map .kept ++ later) := fun _ =>
    ⟨_, rfl, rfl⟩
  constructor
  · rintro ⟨equal, lexed⟩
    cases portions with
    | nil => cases equal
    | cons portion rest =>
        obtain ⟨here, behind⟩ := everywhere_cons.mp lexed
        cases portion with
        | kept c =>
            rw [Portion.whole_kept] at equal
            obtain ⟨rfl, tailEqual⟩ := List.cons.inj equal
            have opens : OpensLine (['/'].map .kept ++ rest) :=
              ⟨rest, rfl, by rw [tailEqual]; rfl⟩
            have regrouped : whole rest = ('/' :: body) ++ after := tailEqual
            obtain ⟨later, rfl, behindLine⟩ := exists_kept_of_line opens lineOnly behind regrouped
            have newline : later = [] ∨ ∃ more, later = .kept '\n' :: more := by
              refine eq_nil_or_newline (fun fragment member => lexed.construct ?_) behindLine ends
              exact List.mem_cons_of_mem _ (List.mem_append_right _ member)
            exact ⟨later, rfl, behindLine,
              (lexed_line_append (opensLine later) lineOnly newline).mp lexed⟩
        | lifted fragment =>
            have shielded := (Lexeme.construct_prefix_iff.mp
              ⟨here.1, ⟨whole rest, equal⟩⟩).1
            rw [Lexeme.next_slash_slash] at shielded
            cases shielded
  · rintro ⟨later, rfl, rfl, tail⟩
    refine ⟨by simp, (lexed_line_append (opensLine later) lineOnly ?_).mpr tail⟩
    exact eq_nil_or_newline (fun _ => tail.construct) rfl ends

/-! ### The whole scan -/

/-- The portions that a lexeme is made of. -/
def Lexeme.portions (lexeme : Lexeme) : List Portion :=
  if lexeme.isShielded then [.lifted lexeme.text] else lexeme.text.map .kept

/-- Each step of the scan takes the only beginning of a lexed division. -/
theorem lexed_next_iff {c : Char} {rest : Text} {portions : List Portion} :
    whole portions = c :: rest ∧ Lexed portions ↔
      ∃ later, portions = (Lexeme.next c rest).1.portions ++ later ∧
        whole later = (Lexeme.next c rest).2 ∧ Lexed later := by
  cases shielded : (Lexeme.next c rest).1.isShielded with
  | true =>
      rw [lexed_lifted_iff shielded, Lexeme.portions, if_pos shielded]
      rfl
  | false =>
      have kept : (Lexeme.next c rest).1.portions = (Lexeme.next c rest).1.text.map .kept := by
        rw [Lexeme.portions, shielded]
        rfl
      rw [kept]
      have cut := Lexeme.cut_next c rest
      cases step : Lexeme.next c rest with
      | mk lexeme after =>
          rw [step] at cut shielded
          cases cut with
          | lineComment oneLine ends => exact lexed_line_iff oneLine ends
          | blockComment => cases shielded
          | stringLiteral => cases shielded
          | charLiteral => cases shielded
          | other noLine => exact lexed_kept_iff noLine (by rw [step]; rfl)

/-- The lexemes of a text are its only division into constructs and gaps. -/
theorem lexed_iff (text : Text) (portions : List Portion) :
    whole portions = text ∧ Lexed portions ↔
      portions = (Lexeme.ofText text).flatMap Lexeme.portions := by
  fun_induction Lexeme.ofText text generalizing portions with
  | case1 =>
      constructor
      · rintro ⟨empty, lexed⟩
        rcases eq_nil_or_newline (fun _ => lexed.construct) empty (.inl rfl) with rfl | ⟨more, rfl⟩
        · rfl
        · cases empty
      · rintro rfl
        exact ⟨rfl, everywhere_nil⟩
  | case2 c rest inductionHypothesis =>
      rw [lexed_next_iff]
      simp only [inductionHypothesis]
      simp

/-- Writing markers over the portions of a scan gives the text that capturing leaves. -/
theorem marked_lexemes (kind : MarkerKind) (index : Nat) (lexemes : List Lexeme) :
    marked kind index (lexemes.flatMap Lexeme.portions) =
      Lexeme.replaceShielded kind index lexemes := by
  induction lexemes generalizing index with
  | nil => rfl
  | cons lexeme rest inductionHypothesis =>
      rw [List.flatMap_cons, Lexeme.replaceShielded, Lexeme.portions]
      split
      · rw [List.singleton_append, marked, inductionHypothesis]
      · rw [Portion.marked_map_kept_append, inductionHypothesis]

/-- The portions that a scan lifts out are the texts that capturing stores. -/
theorem fragments_lexemes (lexemes : List Lexeme) :
    fragments (lexemes.flatMap Lexeme.portions) =
      (lexemes.filter Lexeme.isShielded).map Lexeme.text := by
  induction lexemes with
  | nil => rfl
  | cons lexeme rest inductionHypothesis =>
      rw [List.flatMap_cons, Portion.fragments_append, inductionHypothesis, Lexeme.portions,
        List.filter_cons]
      split
      · rfl
      · rw [Portion.fragments_map_kept, List.nil_append]

/-- Shielding literals is a sound and complete scan. Every text has one division
into constructs and gaps; its constructs are added to the table in order, and each
is replaced by its marker. -/
theorem shieldLiterals_lexed (text : Text) (table : FragmentTable) :
    ∃ portions : List Portion,
      (∀ others, whole others = text ∧ Lexed others ↔ others = portions) ∧
      shieldLiterals text table =
        (marked table.kind table.size portions, table.pushAll (fragments portions)) := by
  refine ⟨(Lexeme.ofText text).flatMap Lexeme.portions, lexed_iff text, ?_⟩
  rw [marked_lexemes, fragments_lexemes, shieldLiterals]

end HeaderBook.Source
