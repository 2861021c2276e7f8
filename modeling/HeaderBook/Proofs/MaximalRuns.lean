import HeaderBook.Proofs.SecondShielding
import HeaderBook.Proofs.Portions

/-!
# Maximal runs of comment lines

`CommentLine` and `Run` give the grammar of a run without reference to the scan.
A division is `IntoRuns` when its fragments are runs, when no comment line follows
a run directly, and when no character of a gap begins a `//`. Every text has
exactly one such division, `intoRuns_iff`, and capturing lifts its fragments. The
rest is read off the division: nothing of a comment line is left over, and two
runs are never adjacent.
-/

namespace HeaderBook.Source

open Portion (whole fragments marked Everywhere)

namespace CommentRun

/-- `CommentLine line rest` says that `line` is a comment line when `rest` comes
after it: the spaces and tabs after its line break belong to it. -/
inductive CommentLine : Text → Text → Prop where
  | broken {body indent rest : Text} (oneLine : '\n' ∉ body)
      (indented : ∀ c ∈ indent, c = ' ' ∨ c = '\t')
      (stops : ∀ c, rest.head? = some c → c ≠ ' ' ∧ c ≠ '\t') :
      CommentLine ('/' :: '/' :: (body ++ '\n' :: indent)) rest
  | final {body : Text} (oneLine : '\n' ∉ body) : CommentLine ('/' :: '/' :: body) []

/-- `Run run rest` says that `run` consists of comment lines, at least one, when
`rest` comes after it. -/
inductive Run : Text → Text → Prop where
  | single {line rest : Text} (isLine : CommentLine line rest) : Run line rest
  | more {line run rest : Text} (isLine : CommentLine line (run ++ rest)) (isRun : Run run rest) :
      Run (line ++ run) rest

/-- Comment lines are indented by spaces and tabs. -/
theorem isIndent_iff {c : Char} : isIndent c = true ↔ c = ' ' ∨ c = '\t' := by
  simp [isIndent]

/-- A comment line is found exactly where the grammar has one. -/
theorem line?_eq_some_iff {text line rest : Text} :
    line? text = some (line, rest) ↔ CommentLine line rest ∧ text = line ++ rest := by
  constructor
  · intro found
    refine ⟨?_, (append_of_line? found).symm⟩
    unfold line? at found
    split at found
    next tail =>
      have oneLine : '\n' ∉ tail.takeWhile (· ≠ '\n') := by
        intro member
        have all := List.all_takeWhile (p := (· ≠ '\n')) (l := tail)
        exact absurd (List.all_eq_true.mp all _ member) (by simp)
      split at found
      next =>
        obtain ⟨rfl, rfl⟩ := Prod.mk.inj (Option.some.inj found)
        exact .final oneLine
      next newline after dropped =>
        obtain ⟨rfl, rfl⟩ := Prod.mk.inj (Option.some.inj found)
        have breaks := List.head?_dropWhile_not (· ≠ '\n') tail
        rw [dropped] at breaks
        obtain rfl : newline = '\n' := by simpa using breaks
        refine .broken oneLine (fun c member => ?_) (fun c head => ?_)
        · exact isIndent_iff.mp (List.all_eq_true.mp List.all_takeWhile c member)
        · have stops := List.head?_dropWhile_not isIndent after
          rw [head] at stops
          exact not_or.mp fun indent => by simp [isIndent_iff.mpr indent] at stops
    · cases found
  · rintro ⟨isLine, rfl⟩
    cases isLine with
    | @broken body indent rest oneLine indented stops =>
        have all : ∀ c ∈ indent, isIndent c = true := fun c member =>
          isIndent_iff.mpr (indented c member)
        have taken : indent.takeWhile isIndent = indent := by
          have alone : (indent ++ []).takeWhile isIndent = indent ++ [].takeWhile isIndent :=
            List.takeWhile_append_of_pos all
          simpa using alone
        have ends : ∀ c, rest.head? = some c → isIndent c = false := by
          intro c head
          exact Bool.eq_false_iff.mpr fun indent =>
            not_or.mpr (stops c head) (isIndent_iff.mp indent)
        have found := line?_lineEnd oneLine (.inr ⟨indent, rfl⟩) ends (by simp)
        simpa [Token.lineEnd, taken] using found
    | @final body oneLine =>
        have found := @line?_lineEnd body [] [] oneLine (.inl rfl) (by simp) (by simp)
        simpa [Token.lineEnd] using found

/-- A comment line is found wherever a `//` stands. -/
theorem line?_eq_none_iff {text : Text} : line? text = none ↔ ¬ ['/', '/'] <+: text := by
  unfold line?
  split
  next tail =>
    have begins : ['/', '/'] <+: '/' :: '/' :: tail := ⟨tail, rfl⟩
    simp only [begins, not_true_eq_false, iff_false]
    split <;> simp
  next noLine =>
    simp only [true_iff]
    rintro ⟨tail, rfl⟩
    exact noLine tail rfl

/-- A comment line begins with two slashes. -/
theorem CommentLine.begins {line rest : Text} (isLine : CommentLine line rest) :
    ['/', '/'] <+: line := by
  cases isLine with
  | broken => exact ⟨_, rfl⟩
  | final => exact ⟨_, rfl⟩

/-- A run begins with two slashes. -/
theorem Run.begins {run rest : Text} (isRun : Run run rest) : ['/', '/'] <+: run := by
  cases isRun with
  | single isLine => exact isLine.begins
  | more isLine => exact isLine.begins.trans (List.prefix_append _ _)

/-- A comment line that is found is the first of the run. -/
theorem lines_of_line? {text line rest : Text} (found : line? text = some (line, rest)) :
    lines text = (line :: (lines rest).1, (lines rest).2) := by
  rw [lines]
  split
  next missing => simp [found] at missing
  next again =>
    obtain ⟨rfl, rfl⟩ := Prod.mk.inj (Option.some.inj (found.symm.trans again))
    rfl

/-- A text that begins with no comment line has an empty run. -/
theorem lines_of_not_begins {text : Text} (ends : ¬ ['/', '/'] <+: text) :
    lines text = ([], text) := by
  rw [lines]
  split
  · rfl
  next found => simp [line?_eq_none_iff.mpr ends] at found

/-- No comment line follows the lines that are taken. -/
theorem not_begins_lines (text : Text) : ¬ ['/', '/'] <+: (lines text).2 := by
  fun_induction lines text with
  | case1 text missing => exact line?_eq_none_iff.mp missing
  | case2 text line rest found more after parts inductionHypothesis =>
      rwa [parts] at inductionHypothesis

/-- The lines that are taken form a run, if there are any. -/
theorem run_lines {text line rest : Text} (found : line? text = some (line, rest)) :
    Run (lines text).1.flatten (lines text).2 ∧
      text = (lines text).1.flatten ++ (lines text).2 := by
  fun_induction lines text generalizing line rest with
  | case1 text missing => simp [missing] at found
  | case2 text line' rest' found' more after parts inductionHypothesis =>
      obtain ⟨isLine, equal⟩ := line?_eq_some_iff.mp found'
      cases follows : line? rest' with
      | none =>
          rw [lines_of_not_begins (line?_eq_none_iff.mp follows)] at parts
          obtain ⟨rfl, rfl⟩ := Prod.mk.inj parts
          simp only [List.flatten_cons, List.flatten_nil, List.append_nil]
          exact ⟨.single isLine, equal⟩
      | some cut =>
          obtain ⟨isRun, again⟩ := inductionHypothesis follows
          rw [parts] at isRun again
          rw [again] at isLine equal
          simp only [List.flatten_cons, List.append_assoc]
          exact ⟨.more isLine isRun, equal⟩

/-- A run that no comment line follows is taken whole. -/
theorem Run.lines_append {run rest : Text} (isRun : Run run rest)
    (ends : ¬ ['/', '/'] <+: rest) :
    (lines (run ++ rest)).1.flatten = run ∧ (lines (run ++ rest)).2 = rest := by
  induction isRun with
  | single isLine =>
      rw [lines_of_line? (line?_eq_some_iff.mpr ⟨isLine, rfl⟩), lines_of_not_begins ends]
      simp
  | more isLine _ inductionHypothesis =>
      obtain ⟨taken, left⟩ := inductionHypothesis ends
      rw [List.append_assoc, lines_of_line? (line?_eq_some_iff.mpr ⟨isLine, rfl⟩)]
      simp [taken, left]

end CommentRun

open CommentRun

/-- How a portion fits before those behind it: no comment line follows a run
directly, and no character of a gap begins a `//`. -/
def RunFits : Portion → List Portion → Prop
  | .kept c, right => ¬ ['/', '/'] <+: c :: whole right
  | .lifted run, right => Run run (whole right) ∧ ¬ ['/', '/'] <+: whole right

/-- The division of a text into maximal runs of comment lines and gaps. -/
def IntoRuns (portions : List Portion) : Prop :=
  Everywhere (fun _ => RunFits) portions

/-- The portion that a stretch is. -/
def Stretch.portion : Stretch → Portion
  | .run lines => .lifted lines.flatten
  | .other c => .kept c

/-- A division into runs is checked portion by portion from the left. -/
theorem intoRuns_cons {portion : Portion} {rest : List Portion} :
    IntoRuns (portion :: rest) ↔ RunFits portion rest ∧ IntoRuns rest :=
  Portion.everywhere_cons

/-- Where no comment line stands, one character is kept. -/
theorem intoRuns_kept_iff {c : Char} {rest : Text} (noLine : ¬ ['/', '/'] <+: c :: rest)
    {portions : List Portion} :
    whole portions = c :: rest ∧ IntoRuns portions ↔
      ∃ later, portions = .kept c :: later ∧ whole later = rest ∧ IntoRuns later := by
  constructor
  · rintro ⟨equal, intoRuns⟩
    cases portions with
    | nil => cases equal
    | cons portion later =>
        obtain ⟨fits, tail⟩ := intoRuns_cons.mp intoRuns
        cases portion with
        | kept d =>
            obtain ⟨rfl, rfl⟩ := List.cons.inj equal
            exact ⟨later, rfl, rfl, tail⟩
        | lifted run =>
            have begins := fits.1.begins.trans (List.prefix_append run (whole later))
            rw [← Portion.whole_lifted, equal] at begins
            exact absurd begins noLine
  · rintro ⟨later, rfl, rfl, tail⟩
    exact ⟨rfl, intoRuns_cons.mpr ⟨noLine, tail⟩⟩

/-- Where a comment line stands, the whole run is lifted. -/
theorem intoRuns_lifted_iff {text line rest : Text} (found : line? text = some (line, rest))
    {portions : List Portion} :
    whole portions = text ∧ IntoRuns portions ↔
      ∃ later, portions = .lifted (lines text).1.flatten :: later ∧
        whole later = (lines text).2 ∧ IntoRuns later := by
  constructor
  · rintro ⟨rfl, intoRuns⟩
    cases portions with
    | nil => cases found
    | cons portion later =>
        obtain ⟨fits, tail⟩ := intoRuns_cons.mp intoRuns
        cases portion with
        | kept c =>
            have missing := line?_eq_none_iff.mpr fits
            rw [← Portion.whole_kept, found] at missing
            cases missing
        | lifted run =>
            obtain ⟨taken, left⟩ := fits.1.lines_append fits.2
            rw [← Portion.whole_lifted] at taken left
            exact ⟨later, by rw [taken], left.symm, tail⟩
  · rintro ⟨later, rfl, behind, tail⟩
    obtain ⟨isRun, equal⟩ := run_lines found
    refine ⟨by rw [Portion.whole_lifted, behind, ← equal], intoRuns_cons.mpr ⟨?_, tail⟩⟩
    rw [RunFits, behind]
    exact ⟨isRun, not_begins_lines text⟩

/-- The stretches of a text are its only division into maximal runs. -/
theorem intoRuns_iff (text : Text) (portions : List Portion) :
    whole portions = text ∧ IntoRuns portions ↔
      portions = (Stretch.ofText text).map Stretch.portion := by
  fun_induction Stretch.ofText text generalizing portions with
  | case1 =>
      cases portions with
      | nil => simp [IntoRuns, Portion.everywhere_nil]
      | cons portion later =>
          refine iff_of_false (fun ⟨empty, intoRuns⟩ => ?_) (by simp)
          obtain ⟨fits, _⟩ := intoRuns_cons.mp intoRuns
          cases portion with
          | kept c => cases empty
          | lifted run =>
              rw [Portion.whole_lifted, List.append_eq_nil_iff] at empty
              have begins := fits.1.begins
              simp [empty.1] at begins
  | case2 c rest missing inductionHypothesis =>
      rw [intoRuns_kept_iff (line?_eq_none_iff.mp missing)]
      simp only [inductionHypothesis]
      simp [Stretch.portion]
  | case3 c rest line after found inductionHypothesis =>
      rw [intoRuns_lifted_iff found, lines_of_line? found]
      simp only [inductionHypothesis]
      simp [Stretch.portion]

/-- Writing markers over the portions of a scan gives the text that is left of its runs. -/
theorem marked_stretches (kind : MarkerKind) (index : Nat) (stretches : List Stretch) :
    marked kind index (stretches.map Stretch.portion) = Stretch.replaceRuns kind index stretches := by
  induction stretches generalizing index with
  | nil => rfl
  | cons stretch rest inductionHypothesis =>
      cases stretch with
      | run lines =>
          rw [List.map_cons, Stretch.portion, marked, inductionHypothesis, Stretch.replaceRuns]
      | other c =>
          rw [List.map_cons, Stretch.portion, marked, inductionHypothesis, Stretch.replaceRuns]

/-- The portions that a scan lifts out are its runs. -/
theorem fragments_stretches (stretches : List Stretch) :
    fragments (stretches.map Stretch.portion) = stretches.filterMap Stretch.run? := by
  rw [fragments, List.filterMap_map]
  refine List.filterMap_congr fun stretch _ => ?_
  cases stretch <;> rfl

/-! ### What is left -/

/-- A gap holds no `//`. -/
theorem IntoRuns.not_infix_gap {portions left right : List Portion} {gap : Text}
    (intoRuns : IntoRuns portions) (parts : portions = left ++ gap.map .kept ++ right) :
    ¬ ['/', '/'] <:+: gap := by
  rintro ⟨before, after, rfl⟩
  have fits := intoRuns (left ++ before.map .kept) (.kept '/')
    (.kept '/' :: after.map .kept ++ right) (by simp [parts])
  exact fits ⟨after ++ whole right, by simp⟩

/-- Something stands between two runs. -/
theorem IntoRuns.gap_ne_nil {portions left right : List Portion} {run gap run' : Text}
    (intoRuns : IntoRuns portions)
    (parts : portions = left ++ .lifted run :: (gap.map .kept ++ .lifted run' :: right)) :
    gap ≠ [] := by
  rintro rfl
  have first := intoRuns left (.lifted run) (.lifted run' :: right) parts
  have second := intoRuns (left ++ [.lifted run]) (.lifted run') right (by simp [parts])
  exact first.2 (second.1.begins.trans (List.prefix_append run' (whole right)))

/-- A marker begins with no slash, so a slash at the beginning was there before. -/
theorem head?_whole_of_marked {kind : MarkerKind} {index : Nat} {portions : List Portion}
    (head : (marked kind index portions).head? = some '/') :
    (whole portions).head? = some '/' := by
  cases portions with
  | nil => cases head
  | cons portion rest =>
      cases portion with
      | kept c => exact head
      | lifted fragment => cases kind <;> cases head

/-- No `//` is left, and the markers bring none about. -/
theorem IntoRuns.not_infix_marked {portions : List Portion} (intoRuns : IntoRuns portions)
    (kind : MarkerKind) (index : Nat) : ¬ ['/', '/'] <:+: marked kind index portions := by
  induction portions generalizing index with
  | nil => simp [marked]
  | cons portion rest inductionHypothesis =>
      obtain ⟨fits, tail⟩ := intoRuns_cons.mp intoRuns
      cases portion with
      | kept c =>
          rw [marked, List.infix_cons_iff]
          rintro (⟨more, equal⟩ | later)
          · obtain ⟨rfl, behind⟩ := List.cons.inj equal
            have head : (marked kind index rest).head? = some '/' := by rw [← behind]; rfl
            obtain ⟨more, equal⟩ := List.head?_eq_some_iff.mp (head?_whole_of_marked head)
            exact fits ⟨more, by rw [equal]; rfl⟩
          · exact inductionHypothesis tail index later
      | lifted run =>
          have noSlash : '/' ∉ kind.format index :=
            Token.slash_not_mem_marker (Marker.valid_ofIndex kind index)
          rw [marked, Lexeme.pair_infix_append]
          rintro (marker | later | ⟨last, _⟩)
          · exact noSlash (marker.subset List.mem_cons_self)
          · exact inductionHypothesis tail (index + 1) later
          · exact noSlash (last.subset List.mem_cons_self)

/-- Capturing comment runs lifts exactly the maximal runs. Every text has one
division into maximal runs and gaps; its runs are added to the table in order and
each is replaced by its marker. No gap holds a `//`, two runs are never adjacent,
and no `//` is left. -/
theorem captureCommentRuns_maximal (text : Text) (table : FragmentTable) :
    ∃ portions : List Portion,
      (∀ others, whole others = text ∧ IntoRuns others ↔ others = portions) ∧
      captureCommentRuns text table =
        (marked table.kind table.size portions, table.pushAll (fragments portions)) ∧
      (∀ left gap right, portions = left ++ gap.map .kept ++ right → ¬ ['/', '/'] <:+: gap) ∧
      (∀ left run gap run' right,
        portions = left ++ .lifted run :: (gap.map .kept ++ .lifted run' :: right) →
          gap ≠ [] ∧ ¬ ['/', '/'] <+: gap) ∧
      ¬ ['/', '/'] <:+: (captureCommentRuns text table).1 := by
  have intoRuns := ((intoRuns_iff text _).mpr rfl).2
  refine ⟨(Stretch.ofText text).map Stretch.portion, intoRuns_iff text, ?_, ?_, ?_, ?_⟩
  · rw [marked_stretches, fragments_stretches, captureCommentRuns]
  · intro left gap right parts
    exact intoRuns.not_infix_gap parts
  · intro left run gap run' right parts
    refine ⟨intoRuns.gap_ne_nil parts, fun begins => ?_⟩
    have regrouped : (Stretch.ofText text).map Stretch.portion =
        left ++ [.lifted run] ++ gap.map .kept ++ .lifted run' :: right := by simp [parts]
    exact intoRuns.not_infix_gap regrouped begins.isInfix
  · have clean := intoRuns.not_infix_marked table.kind table.size
    rwa [marked_stretches] at clean

end HeaderBook.Source
