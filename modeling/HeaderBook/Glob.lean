import HeaderBook.CodePoint

/-!
# Glob patterns

A pattern describes whole texts. `*` stands for any text, slashes included, `?`
for any one code point, and a bracket expression for one code point of a set. All
other code points, the backslash among them, stand for themselves. A bracket that
is never closed stands for itself too.
-/

namespace HeaderBook

namespace Glob

/-- A set of code points: closed ranges, and whether the set is what lies
outside them. -/
structure CodeSet where
  negated : Bool
  ranges : List (CodePoint × CodePoint)
  deriving DecidableEq, Repr

/-- The set of all code points. -/
def CodeSet.full : CodeSet := ⟨true, []⟩

/-- The set of one code point. -/
def CodeSet.single (c : CodePoint) : CodeSet := ⟨false, [(c, c)]⟩

/-- Membership in a set. -/
def CodeSet.contains (set : CodeSet) (c : CodePoint) : Bool :=
  set.negated != set.ranges.any fun (low, high) => low ≤ c && c ≤ high

/-- One element of a pattern. -/
inductive Item where
  /-- Any text. -/
  | star
  /-- One code point of a set. -/
  | one (set : CodeSet)
  deriving DecidableEq, Repr

/-- A part of a bracket expression. -/
inductive Part where
  | single (c : CodePoint)
  | range (low high : CodePoint)
  deriving DecidableEq, Repr

/-- The closed range that a part stands for. -/
def Part.bounds : Part → CodePoint × CodePoint
  | .single c => (c, c)
  | .range low high => (low, high)

/-- The parts that a bracket expression's characters spell. A hyphen between two
characters makes a range of them; a hyphen at the beginning, at the end, or right
after a range is an ordinary character unless it begins a range itself. Ranges
whose ends are in the wrong order are dropped. -/
def parts : CodeText → List Part
  | low :: .char '-' :: high :: rest =>
    if low ≤ high then .range low high :: parts rest else parts rest
  | c :: rest => .single c :: parts rest
  | [] => []

/-- The set that a bracket expression's characters denote. An exclamation mark in
front negates the set, and so does one that stands in front only because a dropped
range stood before it; if it is the low end of a range there, the hyphen and the
high end become ordinary characters. -/
def bracketSet (characters : CodeText) : CodeSet :=
  match characters with
  | .char '!' :: rest => ⟨true, (parts rest).map Part.bounds⟩
  | _ =>
    match parts characters with
    | .single (.char '!') :: rest => ⟨true, rest.map Part.bounds⟩
    | .range (.char '!') high :: rest =>
      ⟨true, ('-', '-') :: (high, high) :: rest.map Part.bounds⟩
    | spelled => ⟨false, spelled.map Part.bounds⟩

/-- The bracket that closes an expression. -/
def closing : CodePoint := ']'

/-- The characters between a bracket and the bracket that closes it, and what
follows. An exclamation mark in front, and a closing bracket right after it or in
front, belong to the expression. -/
def bracket? (text : CodeText) : Option (CodeText × CodeText) :=
  let (mark, text) : CodeText × CodeText := match text with
    | .char '!' :: rest => (['!'], rest)
    | _ => ([], text)
  let (first, text) : CodeText × CodeText := match text with
    | .char ']' :: rest => ([']'], rest)
    | _ => ([], text)
  match text.dropWhile (· ≠ closing) with
  | [] => none
  | _ :: after => some (mark ++ first ++ text.takeWhile (· ≠ closing), after)

/-- The element at the beginning of a pattern, and the rest of the pattern. -/
def next (c : CodePoint) (rest : CodeText) : Item × CodeText :=
  match c with
  | .char '*' => (.star, rest)
  | .char '?' => (.one .full, rest)
  | .char '[' =>
    match bracket? rest with
    | some (characters, after) => (.one (bracketSet characters), after)
    | none => (.one (.single c), rest)
  | _ => (.one (.single c), rest)

theorem length_bracket?_lt {text characters after : CodeText}
    (found : bracket? text = some (characters, after)) : after.length < text.length := by
  have shorter (whole : CodeText) : (whole.dropWhile (· ≠ closing)).length ≤ whole.length :=
    (List.dropWhile_suffix _).length_le
  unfold bracket? at found
  split at found
  rename_i mark afterMark markEq
  split at found
  rename_i first afterFirst firstEq
  split at found
  · simp at found
  next closing tail dropped =>
    simp only [Option.some.injEq, Prod.mk.injEq] at found
    have bound := shorter afterFirst
    rw [dropped, found.2] at bound
    have firstLength : afterFirst.length ≤ afterMark.length := by
      split at firstEq <;> simp only [Prod.mk.injEq] at firstEq <;> simp [← firstEq.2]
    have markLength : afterMark.length ≤ text.length := by
      split at markEq <;> simp only [Prod.mk.injEq] at markEq <;> simp [← markEq.2]
    simp only [List.length_cons] at bound
    omega

theorem length_next_le (c : CodePoint) (rest : CodeText) :
    (next c rest).2.length ≤ rest.length := by
  unfold next
  split
  · simp
  · simp
  · split
    next found => exact Nat.le_of_lt (length_bracket?_lt found)
    · simp
  · simp

/-- The elements of a pattern. -/
def items : CodeText → List Item
  | [] => []
  | c :: rest => (next c rest).1 :: items (next c rest).2
termination_by pattern => pattern.length
decreasing_by
  have := length_next_le c rest
  simp only [List.length_cons]
  omega

/-- A text and all that is left of it after dropping characters in front,
longest first. -/
def endings : CodeText → List CodeText
  | [] => [[]]
  | c :: rest => (c :: rest) :: endings rest

/-- What may be left of a text after one more element, given what may be left
before it, longest first. -/
def advance (left : List CodeText) : Item → List CodeText
  | .star =>
    match left with
    | [] => []
    | longest :: _ => endings longest
  | .one set => left.filterMap fun text =>
    match text with
    | [] => none
    | c :: rest => if set.contains c then some rest else none

/-- `describes pattern text` holds when `pattern` describes all of `text`. -/
def describes (pattern text : CodeText) : Bool :=
  ((items pattern).foldl advance [text]).any List.isEmpty

end Glob

/-- `excludes pattern path` holds when an exclusion pattern takes in a relative
path: slashes at the pattern's end ignored, it describes the path, names a
directory above it, or, having no slash, describes one of the path's names. The
empty pattern takes in nothing. -/
def Glob.excludes (pattern path : CodeText) : Bool :=
  let slash : CodePoint := '/'
  let pattern := Text.trimEnd (· = slash) pattern
  !pattern.isEmpty &&
    (describes pattern path ||
      (pattern ++ [slash]).isPrefixOf path ||
      (!pattern.contains slash && (Text.split slash path).any (describes pattern)))

/-- `isExcluded patterns path` holds when some pattern takes in the path. -/
def Glob.isExcluded (patterns : List CodeText) (path : CodeText) : Bool :=
  patterns.any (Glob.excludes · path)

end HeaderBook
