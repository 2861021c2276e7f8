import HeaderBook.Proofs.SourceToken

/-!
# Marker-shaped text

A source may hold text that looks like a generic marker. Such text is not
shielded, so it cannot be told from a marker later; where its number is zero it
is read back as an ampersand. `collapseZeros` is the source as it comes back, and
it is the source itself exactly when no marker-shaped text has the number zero.
-/

namespace HeaderBook.Source

open Text (isDigit digitsValue)

/-- `MarkerShaped source before digits` holds when an ampersand, `digits` and a
full stop stand in `source` after `before`. -/
def MarkerShaped (source before digits : Text) : Prop :=
  (⟨.generic, digits⟩ : Marker).Valid ∧
    ∃ after, source = before ++ '&' :: (digits ++ '.' :: after)

namespace MarkerShaped

/-- A marker shape stays one behind more text. -/
theorem append_left {source before digits : Text} (shaped : MarkerShaped source before digits)
    (front : Text) : MarkerShaped (front ++ source) (front ++ before) digits := by
  obtain ⟨valid, after, rfl⟩ := shaped
  exact ⟨valid, after, by simp⟩

/-- A marker shape stays one before more text. -/
theorem append_right {source before digits : Text} (shaped : MarkerShaped source before digits)
    (back : Text) : MarkerShaped (source ++ back) before digits := by
  obtain ⟨valid, after, rfl⟩ := shaped
  exact ⟨valid, after ++ back, by simp⟩

/-- Marker-shaped text begins with an ampersand. -/
theorem of_append {front rest before digits : Text} (free : '&' ∉ front)
    (shaped : MarkerShaped (front ++ rest) before digits) :
    ∃ before', before = front ++ before' ∧ MarkerShaped rest before' digits := by
  obtain ⟨valid, after, equal⟩ := shaped
  rcases List.append_eq_append_iff.mp equal with ⟨overlap, rfl, split⟩ | ⟨overlap, rfl, split⟩
  · exact ⟨overlap, rfl, valid, after, split⟩
  · cases overlap with
    | nil => exact ⟨[], by simp, valid, after, split.symm⟩
    | cons c overlap =>
        rw [← (List.cons.inj split).1] at free
        simp at free

/-- Marker-shaped text begins where an ampersand stands, or later. -/
theorem of_ampersand {rest before digits : Text}
    (shaped : MarkerShaped ('&' :: rest) before digits) :
    (before = [] ∧ ∃ after, rest = digits ++ '.' :: after) ∨
      ∃ before', before = '&' :: before' ∧ MarkerShaped rest before' digits := by
  obtain ⟨valid, after, equal⟩ := shaped
  cases before with
  | nil => exact .inl ⟨rfl, after, (List.cons.inj equal).2⟩
  | cons c before =>
      obtain ⟨rfl, tail⟩ := List.cons.inj equal
      exact .inr ⟨before, rfl, valid, after, tail⟩

/-- Marker-shaped text at a marker is that marker, or stands after it. Two markers at
one ampersand are the same, since both runs of digits end at the first full stop. -/
theorem of_marker {digits after before digits' : Text} (valid : (⟨.generic, digits⟩ : Marker).Valid)
    (shaped : MarkerShaped ('&' :: (digits ++ '.' :: after)) before digits') :
    (before = [] ∧ digits' = digits) ∨ ∃ before', MarkerShaped after before' digits' := by
  rcases shaped.of_ampersand with ⟨atStart, after', equal⟩ | ⟨_, _, later⟩
  · have taken := congrArg (List.takeWhile isDigit) equal
    rw [takeWhile_isDigit_append valid.digits (by decide),
      takeWhile_isDigit_append shaped.1.digits (by decide)] at taken
    exact .inl ⟨atStart, taken.symm⟩
  · rw [← List.singleton_append, ← List.append_assoc] at later
    obtain ⟨before', _, inside⟩ := MarkerShaped.of_append (ampersand_not_mem_digits valid) later
    exact .inr ⟨before', inside⟩

end MarkerShaped

/-- A text without marker-shaped text. -/
def Unmarked (text : Text) : Prop :=
  ∀ before digits, ¬ MarkerShaped text before digits

/-- Every part of an unmarked text is unmarked. -/
theorem Unmarked.of_append {front text back : Text} (unmarked : Unmarked (front ++ text ++ back)) :
    Unmarked text := by
  intro before digits shaped
  exact unmarked _ digits ((shaped.append_left front).append_right back)

/-- A text without ampersands is unmarked. -/
theorem Unmarked.of_not_mem {text : Text} (free : '&' ∉ text) : Unmarked text := by
  rintro before digits ⟨_, after, rfl⟩
  exact free (List.mem_append_right _ List.mem_cons_self)

/-- A source with every marker-shaped text of number zero replaced by an ampersand. -/
def collapseZeros : Text → Text
  | [] => []
  | c :: rest =>
    if c = '&' && opensGeneric rest && digitsValue (rest.takeWhile isDigit) = 0 then
      '&' :: collapseZeros ((rest.dropWhile isDigit).drop 1)
    else
      c :: collapseZeros rest
termination_by text => text.length
decreasing_by
  · have := (List.dropWhile_sublist (l := rest) isDigit).length_le
    simp only [List.length_cons, List.length_drop]
    omega
  · simp

@[simp] theorem collapseZeros_nil : collapseZeros [] = [] := by
  rw [collapseZeros]

/-- A character other than an ampersand is kept. -/
theorem collapseZeros_plain {c : Char} (plain : c ≠ '&') (rest : Text) :
    collapseZeros (c :: rest) = c :: collapseZeros rest := by
  rw [collapseZeros]
  simp [plain]

/-- An ampersand that opens no marker shape is kept. -/
theorem collapseZeros_bare {rest : Text} (closed : opensGeneric rest = false) :
    collapseZeros ('&' :: rest) = '&' :: collapseZeros rest := by
  rw [collapseZeros]
  simp [closed]

/-- What holds no ampersand is kept. -/
theorem collapseZeros_append_of_not_mem {text : Text} (free : '&' ∉ text) (rest : Text) :
    collapseZeros (text ++ rest) = text ++ collapseZeros rest := by
  induction text with
  | nil => rfl
  | cons c text inductionHypothesis =>
      rw [List.mem_cons, not_or] at free
      rw [List.cons_append, collapseZeros_plain (Ne.symm free.1), inductionHypothesis free.2]
      rfl

/-- Marker-shaped text becomes an ampersand when its number is zero, and is kept
otherwise. -/
theorem collapseZeros_marker {digits : Text} (valid : (⟨.generic, digits⟩ : Marker).Valid)
    (after : Text) :
    collapseZeros ('&' :: (digits ++ '.' :: after)) =
      (if digitsValue digits = 0 then ['&'] else '&' :: (digits ++ ['.'])) ++
        collapseZeros after := by
  have opens := opensGeneric_iff.mpr ⟨digits, after, valid, rfl⟩
  have kept := collapseZeros_append_of_not_mem (ampersand_not_mem_digits valid) after
  rw [List.append_assoc, List.singleton_append] at kept
  rw [collapseZeros, takeWhile_isDigit_append valid.digits (by decide),
    dropWhile_isDigit_append valid.digits (by decide)]
  by_cases zero : digitsValue digits = 0
  · simp [opens, zero]
  · simp [opens, zero, kept]

/-- Collapsing is local at a boundary. -/
theorem collapseZeros_append {left right : Text} (boundary : Boundary left right) :
    collapseZeros (left ++ right) = collapseZeros left ++ collapseZeros right := by
  induction left using ampersand_induction with
  | nil => simp
  | plain c rest ordinary inductionHypothesis =>
      rw [List.cons_append, collapseZeros_plain ordinary, collapseZeros_plain ordinary,
        inductionHypothesis boundary.tail]
      rfl
  | marker digits after valid inductionHypothesis =>
      have inner : Boundary after right := by
        rcases boundary with closed | outside
        · refine .inl fun before digits' equal => ?_
          exact closed ('&' :: (digits ++ '.' :: before)) digits' (by simp [equal])
        · exact .inr outside
      rw [List.cons_append, List.append_assoc, List.cons_append, collapseZeros_marker valid,
        collapseZeros_marker valid, inductionHypothesis inner, List.append_assoc]
  | bare rest closed inductionHypothesis =>
      have same := boundary.opensGeneric_append
      rw [List.cons_append, collapseZeros_bare closed, collapseZeros_bare (same.trans closed),
        inductionHypothesis boundary.tail]
      rfl

/-- Collapsing never makes a text longer. -/
theorem length_collapseZeros_le (text : Text) : (collapseZeros text).length ≤ text.length := by
  induction text using ampersand_induction with
  | nil => simp
  | plain c rest ordinary inductionHypothesis =>
      rw [collapseZeros_plain ordinary, List.length_cons, List.length_cons]
      omega
  | marker digits after valid inductionHypothesis =>
      rw [collapseZeros_marker valid]
      split
      · simp only [List.length_append, List.length_cons, List.length_nil]
        omega
      · simp only [List.length_append, List.length_cons, List.length_nil]
        omega
  | bare rest closed inductionHypothesis =>
      rw [collapseZeros_bare closed, List.length_cons, List.length_cons]
      omega

/-- A text is kept exactly when no marker-shaped text in it has the number zero. -/
theorem collapseZeros_eq_self_iff {text : Text} :
    collapseZeros text = text ↔
      ∀ before digits, MarkerShaped text before digits → digitsValue digits ≠ 0 := by
  induction text using ampersand_induction with
  | nil => simp [MarkerShaped]
  | plain c rest ordinary inductionHypothesis =>
      rw [collapseZeros_plain ordinary, List.cons.injEq, and_iff_right rfl, inductionHypothesis]
      constructor
      · intro nonzero before digits shaped
        have free : '&' ∉ [c] := by simpa using ordinary.symm
        obtain ⟨before', _, later⟩ := MarkerShaped.of_append free shaped
        exact nonzero before' digits later
      · intro nonzero before digits shaped
        exact nonzero _ digits (shaped.append_left [c])
  | marker digits after valid inductionHypothesis =>
      rw [collapseZeros_marker valid]
      by_cases zero : digitsValue digits = 0
      · rw [if_pos zero]
        constructor
        · intro equal
          have lengths := congrArg List.length equal
          have shorter := length_collapseZeros_le after
          simp only [List.length_append, List.length_cons, List.length_nil] at lengths
          omega
        · intro nonzero
          exact absurd zero (nonzero [] digits ⟨valid, after, rfl⟩)
      · have split : '&' :: (digits ++ '.' :: after) = '&' :: (digits ++ ['.']) ++ after := by simp
        rw [if_neg zero, split, List.append_cancel_left_eq, inductionHypothesis]
        constructor
        · intro nonzero before digits' shaped
          rw [← split] at shaped
          rcases shaped.of_marker valid with ⟨_, rfl⟩ | ⟨before', later⟩
          · exact zero
          · exact nonzero before' digits' later
        · intro nonzero before digits' shaped
          exact nonzero _ digits' (shaped.append_left _)
  | bare rest closed inductionHypothesis =>
      rw [collapseZeros_bare closed, List.cons.injEq, and_iff_right rfl, inductionHypothesis]
      constructor
      · intro nonzero before digits shaped
        rcases shaped.of_ampersand with ⟨_, after, equal⟩ | ⟨before', _, later⟩
        · have opens := opensGeneric_iff.mpr ⟨digits, after, shaped.1, equal⟩
          simp [opens] at closed
        · exact nonzero before' digits later
      · intro nonzero before digits shaped
        exact nonzero _ digits (shaped.append_left ['&'])

/-- Nothing changes in an unmarked text. -/
theorem Unmarked.collapseZeros_eq {text : Text} (unmarked : Unmarked text) :
    collapseZeros text = text :=
  collapseZeros_eq_self_iff.mpr fun before digits shaped =>
    absurd shaped (unmarked before digits)

end HeaderBook.Source
