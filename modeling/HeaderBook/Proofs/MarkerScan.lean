import HeaderBook.FragmentTable
import HeaderBook.Proofs.Decimal

/-!
# Cutting a text at its markers

A marker that was written into a text is found there again, whatever stands
before and after it: its opening begins with an ampersand, and its closing
character is no digit. A text is `Clean` when every ampersand in it opens a
marker. Clean texts are cut piece by piece, so everything that is computed from
the segments of a text distributes over their concatenation.
-/

namespace HeaderBook

open Text (isDigit decimal digitsValue)

/-- The digits in front of any other character are all that is read. -/
theorem takeWhile_isDigit_append {digits : Text} (all : ∀ c ∈ digits, isDigit c = true)
    {c : Char} (stops : isDigit c = false) (rest : Text) :
    (digits ++ c :: rest).takeWhile isDigit = digits := by
  rw [List.takeWhile_append_of_pos all]
  simp [stops]

/-- Reading digits stops at the first other character. -/
theorem dropWhile_isDigit_append {digits : Text} (all : ∀ c ∈ digits, isDigit c = true)
    {c : Char} (stops : isDigit c = false) (rest : Text) :
    (digits ++ c :: rest).dropWhile isDigit = c :: rest := by
  rw [List.dropWhile_append_of_pos all]
  simp [stops]

/-- No kind of marker closes with a digit. -/
theorem MarkerKind.isDigit_closing (kind : MarkerKind) : isDigit kind.closing = false := by
  cases kind <;> decide

namespace Marker

/-- The index of a marker is written with one or more digits and nothing else. -/
structure Valid (marker : Marker) : Prop where
  nonempty : marker.digits ≠ []
  digits : ∀ c ∈ marker.digits, isDigit c = true

/-- The number that a marker's digits denote, however many they are. -/
def index (marker : Marker) : Nat :=
  digitsValue marker.digits

/-- The marker that is written for an index. -/
def ofIndex (kind : MarkerKind) (index : Nat) : Marker :=
  ⟨kind, decimal index⟩

/-- The marker of a number is spelled as markers of its kind are written. -/
theorem text_ofIndex (kind : MarkerKind) (index : Nat) :
    (ofIndex kind index).text = kind.format index :=
  rfl

@[simp] theorem kind_ofIndex (kind : MarkerKind) (index : Nat) :
    (ofIndex kind index).kind = kind :=
  rfl

@[simp] theorem index_ofIndex (kind : MarkerKind) (number : Nat) :
    (ofIndex kind number).index = number :=
  Text.digitsValue_decimal number

/-- Written markers are valid. -/
theorem valid_ofIndex (kind : MarkerKind) (index : Nat) : (ofIndex kind index).Valid :=
  ⟨Text.decimal_ne_nil index, Text.isDigit_of_mem_decimal⟩

/-- The marker of an ampersand is valid. -/
theorem valid_zero : (⟨.generic, ['0']⟩ : Marker).Valid :=
  ⟨nofun, List.forall_mem_singleton.mpr rfl⟩

/-- The first digit of a valid marker, and the others. -/
theorem Valid.exists_cons {marker : Marker} (valid : marker.Valid) :
    ∃ digit digits, marker.digits = digit :: digits ∧ isDigit digit = true := by
  obtain ⟨digit, digits, equal⟩ := List.exists_cons_of_ne_nil valid.nonempty
  exact ⟨digit, digits, equal, valid.digits digit (by simp [equal])⟩

/-- A text that begins with a marker is read as that marker by its own kind. -/
theorem kind_read?_text_append {marker : Marker} (valid : marker.Valid) (rest : Text) :
    marker.kind.read? (marker.text ++ rest) = some (marker.digits, rest) := by
  have split : marker.text ++ rest =
      marker.kind.opening ++ (marker.digits ++ marker.kind.closing :: rest) := by
    simp [text]
  have opened := Text.after?_eq_some_iff.mpr split
  have stops := marker.kind.isDigit_closing
  obtain ⟨digit, digits, equal, _⟩ := valid.exists_cons
  have taken := takeWhile_isDigit_append valid.digits stops rest
  have dropped := dropWhile_isDigit_append valid.digits stops rest
  unfold MarkerKind.read?
  rw [opened]
  simp only [taken, dropped]
  simp [equal]

/-- A kind reads a marker exactly where a text begins with one. -/
theorem kind_read?_eq_some_iff {kind : MarkerKind} {text digits rest : Text} :
    kind.read? text = some (digits, rest) ↔
      (⟨kind, digits⟩ : Marker).Valid ∧ text = (⟨kind, digits⟩ : Marker).text ++ rest := by
  constructor
  · intro found
    have whole := MarkerKind.text_of_read? found
    refine ⟨?_, by simp [whole, Marker.text]⟩
    unfold MarkerKind.read? at found
    split at found
    · simp at found
    next body opened =>
      split at found
      next digit more c rest' taken _ =>
        split at found
        · simp only [Option.some.injEq, Prod.mk.injEq] at found
          obtain ⟨rfl, rfl⟩ := found
          refine ⟨List.cons_ne_nil _ _, fun d member => ?_⟩
          rw [← taken] at member
          exact List.all_eq_true.mp List.all_takeWhile d member
        · simp at found
      · simp at found
  · rintro ⟨valid, rfl⟩
    exact kind_read?_text_append valid rest

/-- No other kind reads a marker there. -/
theorem other_read?_text_append {marker : Marker} (valid : marker.Valid) {kind : MarkerKind}
    (different : kind ≠ marker.kind) (rest : Text) : kind.read? (marker.text ++ rest) = none := by
  obtain ⟨own, written⟩ := marker
  obtain ⟨digit, digits, rfl, isDigit_digit⟩ := valid.exists_cons
  have notLetter : ∀ letter, isDigit letter = false → letter ≠ digit := by
    rintro letter noDigit rfl
    simp [noDigit] at isDigit_digit
  have notD := notLetter 'D' (by decide)
  have notB := notLetter 'B' (by decide)
  have letterD : isDigit 'D' = false := by decide
  have letterB : isDigit 'B' = false := by decide
  cases own <;> cases kind <;>
    simp_all [MarkerKind.read?, text, MarkerKind.opening, Text.after?]

/-- A text that begins with a valid marker is read as that marker. -/
theorem read?_text_append {marker : Marker} (valid : marker.Valid) (rest : Text) :
    Marker.read? (marker.text ++ rest) = some (marker, rest) := by
  have own := kind_read?_text_append valid rest
  have other : ∀ kind, kind ≠ marker.kind → kind.read? (marker.text ++ rest) = none :=
    fun _ different => other_read?_text_append valid different rest
  obtain ⟨kind, digits⟩ := marker
  cases kind with
  | generic => simp [Marker.read?, MarkerKind.all, own]
  | docComment => simp [Marker.read?, MarkerKind.all, own, other .generic]
  | block => simp [Marker.read?, MarkerKind.all, own, other .generic, other .docComment]

/-- Only an ampersand opens a marker. -/
theorem read?_eq_none_of_ne {c : Char} (plain : c ≠ '&') (rest : Text) :
    Marker.read? (c :: rest) = none := by
  simp [Marker.read?, MarkerKind.all, MarkerKind.read?, MarkerKind.opening, Text.after?,
    plain.symm]

/-- A character that is no digit and does not belong to the form of a kind stands in
no marker of that kind. -/
theorem Valid.not_mem_text {kind : MarkerKind} {digits : Text}
    (valid : (⟨kind, digits⟩ : Marker).Valid) {c : Char} (noDigit : isDigit c = false)
    (notOpening : c ∉ kind.opening) (notClosing : c ≠ kind.closing) :
    c ∉ (⟨kind, digits⟩ : Marker).text := by
  intro member
  simp only [text, List.mem_append, List.mem_singleton] at member
  rcases member with (opening | digit) | closing
  · exact notOpening opening
  · rw [valid.digits c digit] at noDigit
    cases noDigit
  · exact notClosing closing

/-- A marker's only ampersand is its first character. -/
theorem Valid.exists_text_eq {marker : Marker} (valid : marker.Valid) :
    ∃ body, marker.text = '&' :: body ∧ '&' ∉ body := by
  have noDigit : '&' ∉ marker.digits := by
    intro member
    have wrong := valid.digits _ member
    exact absurd wrong (by decide)
  obtain ⟨kind, digits⟩ := marker
  cases kind with
  | generic => exact ⟨digits ++ ['.'], rfl, by simpa using noDigit⟩
  | docComment => exact ⟨'D' :: 'O' :: 'C' :: digits ++ [':'], rfl, by simpa using noDigit⟩
  | block =>
      exact ⟨'B' :: 'L' :: 'O' :: 'C' :: 'K' :: digits ++ [';'], rfl, by simpa using noDigit⟩

end Marker

namespace Segment

/-- A segment that cutting can give: an ampersand never stands alone, and a
marker has digits. -/
def Valid : Segment → Prop
  | .plain c => c ≠ '&'
  | .marker found => found.Valid

@[simp] theorem ofText_nil : ofText [] = [] := by
  rw [ofText]

/-- A character other than an ampersand is read as itself. -/
theorem ofText_plain {c : Char} (plain : c ≠ '&') (rest : Text) :
    ofText (c :: rest) = .plain c :: ofText rest := by
  rw [ofText]
  split
  next found _ read => simp [Marker.read?_eq_none_of_ne plain] at read
  · rfl

/-- A valid marker is read as a marker whatever follows it. -/
theorem ofText_marker {marker : Marker} (valid : marker.Valid) (rest : Text) :
    ofText (marker.text ++ rest) = .marker marker :: ofText rest := by
  have read := Marker.read?_text_append valid rest
  obtain ⟨body, textEq, _⟩ := valid.exists_text_eq
  rw [textEq, List.cons_append] at read ⊢
  rw [ofText]
  split
  next found after again =>
    simp only [read, Option.some.injEq, Prod.mk.injEq] at again
    rw [again.1, again.2]
  next none => simp [read] at none

/-- The segments of a text are written as the text. -/
theorem flatMap_text_ofText (text : Text) : (ofText text).flatMap Segment.text = text := by
  fun_induction ofText text with
  | case1 => rfl
  | case2 c rest found after read inductionHypothesis =>
      rw [List.flatMap_cons, inductionHypothesis]
      exact (Marker.text_of_read? read).symm
  | case3 c rest _ inductionHypothesis =>
      rw [List.flatMap_cons, inductionHypothesis]
      rfl

/-- Cutting finds exactly the valid segments that a text was written with. -/
theorem ofText_flatMap_append {segments : List Segment}
    (valid : ∀ segment ∈ segments, segment.Valid) (rest : Text) :
    ofText (segments.flatMap Segment.text ++ rest) = segments ++ ofText rest := by
  induction segments with
  | nil => rfl
  | cons segment segments inductionHypothesis =>
      have tail := inductionHypothesis fun other member => valid other (by simp [member])
      have head := valid segment (by simp)
      rw [List.flatMap_cons, List.append_assoc, List.cons_append, ← tail]
      cases segment with
      | plain c => exact ofText_plain head _
      | marker found => exact ofText_marker head _

/-- An ampersand can only be the first character of a valid segment. -/
theorem Valid.exists_text_eq {segment : Segment} (valid : segment.Valid) :
    ∃ c body, segment.text = c :: body ∧ '&' ∉ body := by
  cases segment with
  | plain c => exact ⟨c, [], rfl, by simp⟩
  | marker found =>
      obtain ⟨body, equal, free⟩ := Marker.Valid.exists_text_eq valid
      exact ⟨'&', body, equal, free⟩

/-- Where an ampersand stands, a segment begins. -/
theorem exists_split_of_ampersand {segments : List Segment}
    (valid : ∀ segment ∈ segments, segment.Valid) {front rest : Text}
    (equal : segments.flatMap Segment.text = front ++ '&' :: rest) :
    ∃ left right, segments = left ++ right ∧ left.flatMap Segment.text = front ∧
      right.flatMap Segment.text = '&' :: rest := by
  induction segments generalizing front with
  | nil => simp at equal
  | cons segment segments inductionHypothesis =>
      obtain ⟨c, body, textEq, free⟩ := (valid segment (by simp)).exists_text_eq
      cases front with
      | nil => exact ⟨[], segment :: segments, rfl, rfl, equal⟩
      | cons d front =>
          rw [List.flatMap_cons, textEq, List.cons_append, List.cons_append] at equal
          obtain ⟨rfl, tails⟩ := List.cons.inj equal
          -- The ampersand cannot lie in the rest of this segment.
          have inner : ∃ front', front = body ++ front' ∧
              segments.flatMap Segment.text = front' ++ '&' :: rest := by
            rcases List.append_eq_append_iff.mp tails with ⟨front', rfl, later⟩ | ⟨overlap, rfl, later⟩
            · exact ⟨front', rfl, later⟩
            · cases overlap with
              | nil => exact ⟨[], by simp, later.symm⟩
              | cons x overlap =>
                  obtain ⟨rfl, _⟩ := List.cons.inj later
                  simp at free
          obtain ⟨front', rfl, later⟩ := inner
          obtain ⟨left, right, rfl, leftEq, rightEq⟩ :=
            inductionHypothesis (fun other member => valid other (by simp [member])) later
          exact ⟨segment :: left, right, rfl, by simp [textEq, leftEq], rightEq⟩

end Segment

/-- Every ampersand of a clean text opens a marker. -/
def Clean (text : Text) : Prop :=
  ∀ segment ∈ Segment.ofText text, segment.Valid

namespace Clean

/-- The empty text is clean. -/
theorem nil : Clean [] := by
  simp [Clean]

/-- A character other than an ampersand is clean. -/
theorem plain {c : Char} (ordinary : c ≠ '&') : Clean [c] := by
  intro segment member
  rw [Segment.ofText_plain ordinary, Segment.ofText_nil, List.mem_singleton] at member
  rw [member]
  exact ordinary

/-- The text of a valid marker is clean. -/
theorem marker {found : Marker} (valid : found.Valid) : Clean found.text := by
  intro segment member
  have cut := Segment.ofText_marker valid []
  rw [List.append_nil] at cut
  rw [cut, Segment.ofText_nil, List.mem_singleton] at member
  rw [member]
  exact valid

/-- Every marker that is written is clean. -/
theorem format (kind : MarkerKind) (index : Nat) : Clean (kind.format index) :=
  marker (Marker.valid_ofIndex kind index)

/-- A clean text is cut independently of what follows it. -/
theorem ofText_append {text : Text} (clean : Clean text) (rest : Text) :
    Segment.ofText (text ++ rest) = Segment.ofText text ++ Segment.ofText rest := by
  have cut := Segment.ofText_flatMap_append clean rest
  rwa [Segment.flatMap_text_ofText] at cut

/-- Clean texts may be joined. -/
theorem append {left right : Text} (cleanLeft : Clean left) (cleanRight : Clean right) :
    Clean (left ++ right) := by
  intro segment member
  rw [cleanLeft.ofText_append, List.mem_append] at member
  rcases member with inLeft | inRight
  · exact cleanLeft segment inLeft
  · exact cleanRight segment inRight

end Clean

end HeaderBook
