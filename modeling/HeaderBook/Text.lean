/-!
# Text

A text is a list of characters, and lengths and positions count characters. This
module holds the operations on texts that the rest of the library shares: trimming,
splitting and joining, which do not depend on what a text is made of, and reading a
known beginning. Character classes live in the modules below it.
-/

namespace HeaderBook

/-- A text is the list of its characters. -/
abbrev Text := List Char

namespace Text

/-- `trimEnd drop text` is `text` without the longest run at its end on which
`drop` holds. -/
def trimEnd {α : Type} (drop : α → Bool) (text : List α) : List α :=
  (text.reverse.dropWhile drop).reverse

/-- `trim drop text` removes the runs at both ends on which `drop` holds. -/
def trim {α : Type} (drop : α → Bool) (text : List α) : List α :=
  trimEnd drop (text.dropWhile drop)

/-- `split separator text` cuts `text` at every `separator`. The parts are the
stretches between separators, so there is always at least one. -/
def split {α : Type} [DecidableEq α] (separator : α) : List α → List (List α)
  | [] => [[]]
  | c :: rest =>
    if c = separator then
      [] :: split separator rest
    else
      match split separator rest with
      | [] => [[c]]
      | part :: parts => (c :: part) :: parts

/-- `join separator parts` is the inverse view of `split`: the parts with a
separator between each two. -/
def join {α : Type} (separator : List α) (parts : List (List α)) : List α :=
  List.intercalate separator parts

/-- `after? lead text` is what follows `lead` in a text that begins with it. -/
def after? : Text → Text → Option Text
  | [], text => some text
  | _ :: _, [] => none
  | c :: lead, d :: text => if c = d then after? lead text else none

/-- `after?` finds exactly the beginnings of a text. -/
theorem after?_eq_some_iff {lead text rest : Text} :
    after? lead text = some rest ↔ text = lead ++ rest := by
  induction lead generalizing text with
  | nil => simp [after?]
  | cons c lead inductionHypothesis =>
    cases text with
    | nil => simp [after?]
    | cons d text =>
      by_cases equal : c = d
      · simp [after?, equal, inductionHypothesis]
      · simp [after?, equal, Ne.symm equal]

/-- The ASCII letters of `text` in lower case, all else as it is. -/
def lowerAscii (text : Text) : Text :=
  text.map Char.toLower

end Text
end HeaderBook
