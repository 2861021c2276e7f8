import HeaderBook.FragmentTable

/-!
# Runs of line comments

A comment line is `//`, the rest of its line, and either the line break with the
spaces and tabs after it or the end of the text. Comment lines that follow each
other directly form one run, which documents what comes next. A blank line, or
anything else between two comment lines, separates runs.
-/

namespace HeaderBook.Source

/-- A stretch of a text: a run of comment lines, or one character outside runs. -/
inductive Stretch where
  | run (lines : List Text)
  | other (c : Char)
  deriving DecidableEq, Repr

namespace CommentRun

/-- Indentation consists of spaces and tabs. -/
def isIndent (c : Char) : Bool :=
  c = ' ' || c = '\t'

/-- The comment line at the beginning of a text, and what follows it. -/
def line? : Text → Option (Text × Text)
  | '/' :: '/' :: rest =>
    let body := rest.takeWhile (· ≠ '\n')
    match rest.dropWhile (· ≠ '\n') with
    | [] => some ('/' :: '/' :: body, [])
    | newline :: after =>
      some ('/' :: '/' :: (body ++ newline :: after.takeWhile isIndent), after.dropWhile isIndent)
  | _ => none

/-- A comment line and what follows it are the text they were cut from. -/
theorem append_of_line? {text line rest : Text} (found : line? text = some (line, rest)) :
    line ++ rest = text := by
  unfold line? at found
  split at found
  next tail =>
    have whole := List.takeWhile_append_dropWhile (p := (· ≠ '\n')) (l := tail)
    split at found
    next dropped =>
      simp only [Option.some.injEq, Prod.mk.injEq] at found
      obtain ⟨rfl, rfl⟩ := found
      rw [dropped] at whole
      simpa using whole
    next newline after dropped =>
      simp only [Option.some.injEq, Prod.mk.injEq] at found
      obtain ⟨rfl, rfl⟩ := found
      rw [dropped] at whole
      simp only [List.cons_append, List.append_assoc, List.takeWhile_append_dropWhile, whole]
  · simp at found

theorem line?_ne_nil {text line rest : Text} (found : line? text = some (line, rest)) :
    line ≠ [] := by
  unfold line? at found
  split at found
  · split at found <;> simp only [Option.some.injEq, Prod.mk.injEq] at found <;>
      simp [← found.1]
  · simp at found

theorem length_line?_lt {text line rest : Text} (found : line? text = some (line, rest)) :
    rest.length < text.length := by
  have positive := List.length_pos_iff.mpr (line?_ne_nil found)
  rw [← append_of_line? found, List.length_append]
  omega

/-- The comment lines at the beginning of a text, as many as follow each other
directly, and what comes after them. -/
def lines (text : Text) : List Text × Text :=
  match _found : line? text with
  | none => ([], text)
  | some (line, rest) =>
    let (more, after) := lines rest
    (line :: more, after)
termination_by text.length
decreasing_by exact length_line?_lt _found

theorem length_lines_le (text : Text) : (lines text).2.length ≤ text.length := by
  fun_induction lines text with
  | case1 => simp
  | case2 text line rest found more after _ inductionHypothesis =>
    have := length_line?_lt found
    simp_all
    omega

end CommentRun

open CommentRun

/-- Cuts a text into runs of comment lines and other characters. -/
def Stretch.ofText : Text → List Stretch
  | [] => []
  | c :: rest =>
    match _found : line? (c :: rest) with
    | none => .other c :: Stretch.ofText rest
    | some (line, after) =>
      .run (line :: (lines after).1) :: Stretch.ofText (lines after).2
termination_by text => text.length
decreasing_by
  · simp
  · have := length_line?_lt _found
    have := length_lines_le after
    omega

/-- The text of a run. -/
def Stretch.run? : Stretch → Option Text
  | .other _ => none
  | .run lines => some lines.flatten

/-- Writes stretches back with every run replaced by a marker. The markers have
successive indices from `index` on. -/
def Stretch.replaceRuns (kind : MarkerKind) (index : Nat) : List Stretch → Text
  | [] => []
  | .other c :: rest => c :: replaceRuns kind index rest
  | .run _ :: rest => kind.format index ++ replaceRuns kind (index + 1) rest

/-- Captures every run of comment lines and leaves a marker in its place. -/
def captureCommentRuns (text : Text) (table : FragmentTable) : Text × FragmentTable :=
  let stretches := Stretch.ofText text
  (Stretch.replaceRuns table.kind table.size stretches,
    table.pushAll (stretches.filterMap Stretch.run?))

end HeaderBook.Source
