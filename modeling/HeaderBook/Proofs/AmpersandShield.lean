import HeaderBook.Source.Ampersand
import HeaderBook.Proofs.MarkerScan

/-!
# What shielding ampersands does to a text

Shielding looks ahead over digits, so it may treat the two halves of a text
otherwise than the whole. It does not at a `Boundary`, which no marker-shaped
text can cross. A shielded text is clean, and its ampersands are those of the
source in their order. No ampersand in it is bare, and a text without bare
ampersands is shielded as it is.
-/

namespace HeaderBook.Source

open Text (isDigit)

/-- The ampersand before `rest` opens a generic marker exactly when digits and a
full stop follow. -/
theorem opensGeneric_iff {rest : Text} :
    opensGeneric rest = true ↔
      ∃ digits after, (⟨.generic, digits⟩ : Marker).Valid ∧ rest = digits ++ '.' :: after := by
  constructor
  · intro opens
    unfold opensGeneric at opens
    split at opens
    next digit digits after taken dropped =>
      refine ⟨digit :: digits, after, ⟨by simp, ?_⟩, ?_⟩
      · have all := List.all_takeWhile (p := isDigit) (l := rest)
        rw [taken] at all
        exact List.all_eq_true.mp all
      · have whole := List.takeWhile_append_dropWhile (p := isDigit) (l := rest)
        rw [taken, dropped] at whole
        exact whole.symm
    · simp at opens
  · rintro ⟨digits, after, valid, rfl⟩
    obtain ⟨digit, more, equal, _⟩ := valid.exists_cons
    have dot : isDigit '.' = false := by decide
    have taken := takeWhile_isDigit_append valid.digits dot after
    have dropped := dropWhile_isDigit_append valid.digits dot after
    unfold opensGeneric
    rw [taken, dropped]
    simp only at equal
    simp [equal]

/-- Whether a marker opens is decided before the first character that is no digit
is passed. -/
theorem opensGeneric_append_of_mem {left : Text} (right : Text)
    (stops : ∃ c ∈ left, isDigit c = false) :
    opensGeneric (left ++ right) = opensGeneric left := by
  obtain ⟨c, member, noDigit⟩ := stops
  have dropped : left.dropWhile isDigit ≠ [] := by
    intro empty
    have whole := List.takeWhile_append_dropWhile (p := isDigit) (l := left)
    rw [empty, List.append_nil] at whole
    have all := List.all_takeWhile (p := isDigit) (l := left)
    rw [whole] at all
    simp [List.all_eq_true.mp all c member] at noDigit
  obtain ⟨d, rest, dropEq⟩ := List.exists_cons_of_ne_nil dropped
  have lengths : (left.takeWhile isDigit).length ≠ left.length := by
    have whole := congrArg List.length
      (List.takeWhile_append_dropWhile (p := isDigit) (l := left))
    rw [List.length_append, dropEq, List.length_cons] at whole
    omega
  unfold opensGeneric
  rw [List.takeWhile_append, if_neg lengths, List.dropWhile_append, dropEq]
  simp only [List.isEmpty_cons, Bool.false_eq_true, if_false, List.cons_append]
  cases left.takeWhile isDigit with
  | nil => rfl
  | cons digit digits =>
      by_cases dot : d = '.'
      · simp [dot]
      · simp [dot]

/-- A text that begins with neither a digit nor a full stop neither opens nor
closes a marker before it. -/
theorem opensGeneric_append_of_head {right : Text} (left : Text)
    (outside : ∀ c, right.head? = some c → isDigit c = false ∧ c ≠ '.') :
    opensGeneric (left ++ right) = opensGeneric left := by
  by_cases stops : ∃ c ∈ left, isDigit c = false
  · exact opensGeneric_append_of_mem right stops
  · have all : ∀ c ∈ left, isDigit c = true := by
      intro c member
      by_cases digit : isDigit c = true
      · exact digit
      · exact absurd ⟨c, member, by simpa using digit⟩ stops
    have never : ∀ rest, (∀ c, rest.head? = some c → isDigit c = false ∧ c ≠ '.') →
        opensGeneric (left ++ rest) = false := by
      intro rest outside
      unfold opensGeneric
      rw [List.dropWhile_append_of_pos all]
      cases rest with
      | nil => simp
      | cons c rest =>
          obtain ⟨noDigit, noDot⟩ := outside c rfl
          simp [noDigit, noDot]
    have alone := never [] (by simp)
    rw [List.append_nil] at alone
    rw [never right outside, alone]

/-- `Boundary left right` holds when no marker-shaped text reaches from `left`
into `right`: either every ampersand of `left` has a character after it in `left`
that is no digit, or `right` begins with neither a digit nor a full stop. -/
def Boundary (left right : Text) : Prop :=
  (∀ before digits, left = before ++ '&' :: digits → ∃ c ∈ digits, isDigit c = false) ∨
    ∀ c, right.head? = some c → isDigit c = false ∧ c ≠ '.'

namespace Boundary

/-- A boundary stays one when characters in front are taken away. -/
theorem tail {c : Char} {left right : Text} (boundary : Boundary (c :: left) right) :
    Boundary left right := by
  rcases boundary with closed | outside
  · exact .inl fun before digits equal => closed (c :: before) digits (by simp [equal])
  · exact .inr outside

/-- What follows a boundary has no say in whether the ampersand before it opens a marker. -/
theorem opensGeneric_append {left right : Text} (boundary : Boundary ('&' :: left) right) :
    opensGeneric (left ++ right) = opensGeneric left := by
  rcases boundary with closed | outside
  · exact opensGeneric_append_of_mem right (closed [] left rfl)
  · exact opensGeneric_append_of_head left outside

/-- A text is closed when a character that is no digit stands after its last
ampersand. -/
theorem of_inner {c : Char} (noDigit : isDigit c = false) (plain : c ≠ '&') {tail : Text}
    (free : '&' ∉ tail) (left right : Text) : Boundary (left ++ c :: tail) right := by
  refine .inl fun before digits equal => ⟨c, ?_, noDigit⟩
  rcases List.append_eq_append_iff.mp equal with ⟨overlap, _, split⟩ | ⟨overlap, _, split⟩
  · cases overlap with
    | nil => exact absurd (List.cons.inj split).1 plain
    | cons d overlap =>
        rw [(List.cons.inj split).2] at free
        simp at free
  · cases overlap with
    | nil => exact absurd (List.cons.inj split).1.symm plain
    | cons d overlap =>
        rw [(List.cons.inj split).2]
        simp

/-- A character that is neither a digit nor a full stop makes a boundary. -/
theorem of_head {c : Char} (noDigit : isDigit c = false) (noDot : c ≠ '.') (left right : Text) :
    Boundary left (c :: right) :=
  .inr fun d equal => by
    obtain rfl : c = d := by simpa using equal
    exact ⟨noDigit, noDot⟩

/-- The end of the text is a boundary. -/
theorem of_nil (left : Text) : Boundary left [] :=
  .inr (by simp)

end Boundary

/-- Nothing is shielded in the empty text. -/
@[simp] theorem shieldAmpersands_nil : shieldAmpersands [] = [] :=
  rfl

/-- Any character but the ampersand stays as it is. -/
theorem shieldAmpersands_cons_of_ne {c : Char} (plain : c ≠ '&') (rest : Text) :
    shieldAmpersands (c :: rest) = c :: shieldAmpersands rest := by
  simp [shieldAmpersands, plain]

/-- An ampersand that opens a generic marker stays as it is. -/
theorem shieldAmpersands_of_opens {rest : Text} (opens : opensGeneric rest = true) :
    shieldAmpersands ('&' :: rest) = '&' :: shieldAmpersands rest := by
  simp [shieldAmpersands, opens]

/-- The marker that stands for an ampersand. -/
theorem format_generic_ampersandIndex :
    MarkerKind.generic.format FragmentTable.ampersandIndex = ['&', '0', '.'] := by
  simp [MarkerKind.format, FragmentTable.ampersandIndex, MarkerKind.opening, MarkerKind.closing,
    Text.decimal, Nat.digitChar]

/-- Any other ampersand becomes the marker of the ampersand. -/
theorem shieldAmpersands_of_not_opens {rest : Text} (closed : opensGeneric rest = false) :
    shieldAmpersands ('&' :: rest) = '&' :: '0' :: '.' :: shieldAmpersands rest := by
  simp [shieldAmpersands, closed, format_generic_ampersandIndex]

/-- What shielding writes after the character `c` when `rest` follows it. -/
def inserted (c : Char) (rest : Text) : Text :=
  if c = '&' && !opensGeneric rest then ['0', '.'] else []

/-- Shielding keeps each character and inserts after it what belongs there. -/
theorem shieldAmpersands_cons (c : Char) (rest : Text) :
    shieldAmpersands (c :: rest) = c :: (inserted c rest ++ shieldAmpersands rest) := by
  rw [shieldAmpersands, inserted]
  split
  next shielded =>
    have ampersand : c = '&' := by simp_all
    rw [format_generic_ampersandIndex, ampersand]
    rfl
  · rfl

/-- Nothing is inserted but after an ampersand. -/
theorem inserted_of_ne {c : Char} (plain : c ≠ '&') (rest : Text) : inserted c rest = [] := by
  simp [inserted, plain]

/-- What is inserted is decided before the first character that is no digit is
passed. -/
theorem inserted_append_of_mem (c : Char) {left : Text} (right : Text)
    (stops : ∃ d ∈ left, isDigit d = false) : inserted c (left ++ right) = inserted c left := by
  rw [inserted, inserted, opensGeneric_append_of_mem right stops]

/-- What is inserted is nothing or the rest of the ampersand's marker. -/
theorem inserted_cases (c : Char) (rest : Text) :
    inserted c rest = [] ∨ inserted c rest = ['0', '.'] := by
  unfold inserted
  split
  · exact .inr rfl
  · exact .inl rfl

/-- Shielding is local at a boundary. -/
theorem shieldAmpersands_append {left right : Text} (boundary : Boundary left right) :
    shieldAmpersands (left ++ right) = shieldAmpersands left ++ shieldAmpersands right := by
  induction left with
  | nil => rfl
  | cons c left inductionHypothesis =>
      have tail := inductionHypothesis boundary.tail
      by_cases ampersand : c = '&'
      · subst ampersand
        have same := boundary.opensGeneric_append
        rw [List.cons_append]
        cases opens : opensGeneric left with
        | true =>
            rw [shieldAmpersands_of_opens opens, shieldAmpersands_of_opens (same.trans opens), tail]
            rfl
        | false =>
            rw [shieldAmpersands_of_not_opens opens,
              shieldAmpersands_of_not_opens (same.trans opens), tail]
            rfl
      · rw [List.cons_append, shieldAmpersands_cons_of_ne ampersand,
          shieldAmpersands_cons_of_ne ampersand, tail]
        rfl

/-- Shielding keeps the first character. -/
theorem head?_shieldAmpersands (text : Text) : (shieldAmpersands text).head? = text.head? := by
  cases text with
  | nil => rfl
  | cons c rest =>
      by_cases ampersand : c = '&'
      · subst ampersand
        cases opens : opensGeneric rest with
        | true => simp [shieldAmpersands_of_opens opens]
        | false => simp [shieldAmpersands_of_not_opens opens]
      · simp [shieldAmpersands_cons_of_ne ampersand]

/-- A text without ampersands is left alone. -/
theorem shieldAmpersands_of_not_mem {text : Text} (free : '&' ∉ text) :
    shieldAmpersands text = text := by
  induction text with
  | nil => rfl
  | cons c rest inductionHypothesis =>
      rw [List.mem_cons, not_or] at free
      rw [shieldAmpersands_cons_of_ne (Ne.symm free.1), inductionHypothesis free.2]

/-- Shielding brings in no characters but those of the marker of an ampersand. -/
theorem mem_of_mem_shieldAmpersands {c : Char} {text : Text} (member : c ∈ shieldAmpersands text)
    (notZero : c ≠ '0') (notDot : c ≠ '.') : c ∈ text := by
  fun_induction shieldAmpersands text with
  | case1 => exact member
  | case2 d rest shielded inductionHypothesis =>
      have ampersand : d = '&' := by simp_all
      rw [format_generic_ampersandIndex, ampersand] at *
      simp only [List.cons_append, List.nil_append, List.mem_cons] at member
      rcases member with rfl | zero | dot | later
      · simp
      · exact absurd zero notZero
      · exact absurd dot notDot
      · exact List.mem_cons_of_mem _ (inductionHypothesis later)
  | case3 d rest _ inductionHypothesis =>
      rcases List.mem_cons.mp member with rfl | later
      · simp
      · exact List.mem_cons_of_mem _ (inductionHypothesis later)

/-- A generic marker has no ampersand after its first character. -/
theorem ampersand_not_mem_digits {digits : Text} (valid : (⟨.generic, digits⟩ : Marker).Valid) :
    '&' ∉ digits ++ ['.'] := by
  intro member
  rcases List.mem_append.mp member with digit | dot
  · exact absurd (valid.digits _ digit) (by decide)
  · exact absurd (List.mem_singleton.mp dot) (by decide)

/-- A marker-shaped beginning is kept, and shielding goes on after it. -/
theorem shieldAmpersands_marker {digits : Text} (valid : (⟨.generic, digits⟩ : Marker).Valid)
    (after : Text) :
    shieldAmpersands ('&' :: (digits ++ '.' :: after)) =
      (⟨.generic, digits⟩ : Marker).text ++ shieldAmpersands after := by
  have opens := opensGeneric_iff.mpr ⟨digits, after, valid, rfl⟩
  have boundary : Boundary (digits ++ ['.']) after :=
    .of_inner (by decide) (by decide) (by simp) digits after
  have kept := shieldAmpersands_append boundary
  rw [shieldAmpersands_of_not_mem (ampersand_not_mem_digits valid), List.append_assoc] at kept
  rw [shieldAmpersands_of_opens opens]
  simpa [Marker.text, MarkerKind.opening, MarkerKind.closing] using kept

/-- Induction along the ampersands of a text: each opens a generic marker, which
is then passed as a whole, or does not. -/
@[elab_as_elim]
theorem ampersand_induction {motive : Text → Prop} (nil : motive [])
    (plain : ∀ c rest, c ≠ '&' → motive rest → motive (c :: rest))
    (marker : ∀ digits after, (⟨.generic, digits⟩ : Marker).Valid → motive after →
      motive ('&' :: (digits ++ '.' :: after)))
    (bare : ∀ rest, opensGeneric rest = false → motive rest → motive ('&' :: rest))
    (text : Text) : motive text := by
  induction length : text.length using Nat.strongRecOn generalizing text with
  | _ size inductionHypothesis =>
      cases text with
      | nil => exact nil
      | cons c rest =>
          have shorter : ∀ later : Text, later.length ≤ rest.length → motive later := by
            intro later bound
            refine inductionHypothesis later.length ?_ later rfl
            rw [← length, List.length_cons]
            omega
          by_cases ampersand : c = '&'
          · subst ampersand
            cases opens : opensGeneric rest with
            | true =>
                obtain ⟨digits, after, valid, rfl⟩ := opensGeneric_iff.mp opens
                refine marker digits after valid (shorter after ?_)
                rw [List.length_append, List.length_cons]
                omega
            | false => exact bare rest opens (shorter rest (Nat.le_refl _))
          · exact plain c rest ampersand (shorter rest (Nat.le_refl _))

/-- Every ampersand of a shielded text opens a marker. -/
theorem clean_shieldAmpersands (text : Text) : Clean (shieldAmpersands text) := by
  induction text using ampersand_induction with
  | nil => exact Clean.nil
  | plain c rest ordinary inductionHypothesis =>
      rw [shieldAmpersands_cons_of_ne ordinary]
      exact (Clean.plain ordinary).append inductionHypothesis
  | marker digits after valid inductionHypothesis =>
      rw [shieldAmpersands_marker valid]
      exact (Clean.marker valid).append inductionHypothesis
  | bare rest closed inductionHypothesis =>
      have shown := Clean.format .generic FragmentTable.ampersandIndex
      rw [format_generic_ampersandIndex] at shown
      rw [shieldAmpersands_of_not_opens closed]
      exact shown.append inductionHypothesis

/-! ### Texts that shielding keeps -/

/-- Shielding never shortens a text. -/
theorem length_le_shieldAmpersands (text : Text) :
    text.length ≤ (shieldAmpersands text).length := by
  induction text with
  | nil => exact Nat.le_refl 0
  | cons c rest inductionHypothesis =>
      rw [shieldAmpersands_cons, List.length_cons, List.length_cons, List.length_append]
      omega

/-- A text is kept when each of its ampersands opens a marker. -/
theorem shieldAmpersands_cons_eq_self_iff (c : Char) (rest : Text) :
    shieldAmpersands (c :: rest) = c :: rest ↔
      (c = '&' → opensGeneric rest = true) ∧ shieldAmpersands rest = rest := by
  rw [shieldAmpersands_cons, List.cons.injEq]
  constructor
  · rintro ⟨_, kept⟩
    have lengths := congrArg List.length kept
    have longer := length_le_shieldAmpersands rest
    rw [List.length_append] at lengths
    have nothing : inserted c rest = [] := List.eq_nil_of_length_eq_zero (by omega)
    rw [nothing, List.nil_append] at kept
    refine ⟨fun ampersand => ?_, kept⟩
    simpa [inserted, ampersand] using nothing
  · rintro ⟨opens, kept⟩
    have nothing : inserted c rest = [] := by
      unfold inserted
      split
      next bare => simp_all
      · rfl
    rw [nothing, List.nil_append]
    exact ⟨rfl, kept⟩

/-- The end of a text that shielding leaves alone is left alone too. -/
theorem shieldAmpersands_eq_self_of_append {left right : Text}
    (kept : shieldAmpersands (left ++ right) = left ++ right) : shieldAmpersands right = right := by
  induction left with
  | nil => exact kept
  | cons c left inductionHypothesis =>
      exact inductionHypothesis ((shieldAmpersands_cons_eq_self_iff c _).mp kept).2

/-- A generic marker passes through the shielding unchanged. -/
theorem shieldAmpersands_marker_append {digits : Text}
    (valid : (⟨.generic, digits⟩ : Marker).Valid) (after : Text) :
    shieldAmpersands ((⟨.generic, digits⟩ : Marker).text ++ after) =
      (⟨.generic, digits⟩ : Marker).text ++ shieldAmpersands after := by
  rw [← shieldAmpersands_marker valid]
  simp [Marker.text, MarkerKind.opening, MarkerKind.closing]

/-- Shielding a second time changes nothing. -/
theorem shieldAmpersands_shieldAmpersands (text : Text) :
    shieldAmpersands (shieldAmpersands text) = shieldAmpersands text := by
  induction text using ampersand_induction with
  | nil => rfl
  | plain c rest ordinary inductionHypothesis =>
      rw [shieldAmpersands_cons_of_ne ordinary, shieldAmpersands_cons_of_ne ordinary,
        inductionHypothesis]
  | marker digits after valid inductionHypothesis =>
      rw [shieldAmpersands_marker valid, shieldAmpersands_marker_append valid, inductionHypothesis]
  | bare rest closed inductionHypothesis =>
      have kept := shieldAmpersands_marker_append HeaderBook.Marker.valid_zero (shieldAmpersands rest)
      rw [inductionHypothesis] at kept
      rw [shieldAmpersands_of_not_opens closed]
      exact kept

/-- No ampersand of the text is bare: each is followed by one or more digits and a full
stop. -/
def NoneBare (text : Text) : Prop :=
  ∀ before rest, text = before ++ '&' :: rest →
    ∃ digits after, (⟨.generic, digits⟩ : Marker).Valid ∧ rest = digits ++ '.' :: after

/-- No ampersand is bare if the first is not and no later one is. -/
theorem noneBare_cons_iff {c : Char} {rest : Text} :
    NoneBare (c :: rest) ↔ (c = '&' → opensGeneric rest = true) ∧ NoneBare rest := by
  constructor
  · intro noneBare
    refine ⟨?_, fun before after equal => noneBare (c :: before) after (by rw [equal]; rfl)⟩
    rintro rfl
    exact opensGeneric_iff.mpr (noneBare [] rest rfl)
  · rintro ⟨opens, noneBare⟩ before after equal
    cases before with
    | nil =>
        obtain ⟨rfl, rfl⟩ := List.cons.inj equal
        exact opensGeneric_iff.mp (opens rfl)
    | cons d before => exact noneBare before after (List.cons.inj equal).2

/-- Shielding keeps a text exactly when none of its ampersands is bare. -/
theorem shieldAmpersands_eq_self_iff {text : Text} :
    shieldAmpersands text = text ↔ NoneBare text := by
  induction text with
  | nil => exact iff_of_true rfl fun before rest equal => by simp at equal
  | cons c rest inductionHypothesis =>
      rw [shieldAmpersands_cons_eq_self_iff, noneBare_cons_iff, inductionHypothesis]

/-- A bare ampersand becomes the marker of the reserved entry, and the texts on both sides
of it are shielded on their own. -/
theorem shieldAmpersands_append_bare (left : Text) {right : Text}
    (bare : opensGeneric right = false) :
    shieldAmpersands (left ++ '&' :: right) =
      shieldAmpersands left ++ MarkerKind.generic.format FragmentTable.ampersandIndex ++
        shieldAmpersands right := by
  rw [shieldAmpersands_append (.of_head (by decide) (by decide) left right),
    shieldAmpersands_of_not_opens bare, format_generic_ampersandIndex, List.append_assoc]
  rfl

/-- Shielding leaves no bare ampersand, so a second pass changes nothing, and the texts
without bare ampersands are the ones that are kept. It treats the two parts of a text as it
treats the whole wherever no marker-shaped text reaches from one into the other. That is so
around a bare ampersand, which becomes the reserved marker. -/
theorem shieldAmpersands_normalises (text : Text) :
    NoneBare (shieldAmpersands text) ∧
      shieldAmpersands (shieldAmpersands text) = shieldAmpersands text ∧
      (shieldAmpersands text = text ↔ NoneBare text) ∧
      (∀ left right, text = left ++ right → Boundary left right →
        shieldAmpersands text = shieldAmpersands left ++ shieldAmpersands right) ∧
      ∀ left right, text = left ++ '&' :: right → opensGeneric right = false →
        shieldAmpersands text =
          shieldAmpersands left ++ MarkerKind.generic.format FragmentTable.ampersandIndex ++
            shieldAmpersands right := by
  have again := shieldAmpersands_shieldAmpersands text
  refine ⟨shieldAmpersands_eq_self_iff.mp again, again, shieldAmpersands_eq_self_iff, ?_, ?_⟩
  · rintro left right rfl boundary
    exact shieldAmpersands_append boundary
  · rintro left right rfl bare
    exact shieldAmpersands_append_bare left bare

/-- A text is cut after digits that no full stop follows, and before digits that no ampersand
reaches. -/
theorem shieldAmpersands_normalises_adjoiningDigits :
    Boundary ['&', '1'] ['x', '&', '2', '.'] ∧ Boundary ['&', '1', '.'] ['2', '.', '&'] ∧
      shieldAmpersands ['&', '1', 'x', '&', '2', '.'] =
        shieldAmpersands ['&', '1'] ++ shieldAmpersands ['x', '&', '2', '.'] ∧
      shieldAmpersands ['&', '1', '.', '2', '.', '&'] =
        shieldAmpersands ['&', '1', '.'] ++ shieldAmpersands ['2', '.', '&'] := by
  have first : Boundary ['&', '1'] ['x', '&', '2', '.'] := .of_head (by decide) (by decide) _ _
  have second : Boundary ['&', '1', '.'] ['2', '.', '&'] :=
    .of_inner (by decide) (by decide) (by simp) ['&', '1'] _
  obtain ⟨_, _, _, local₁, _⟩ := shieldAmpersands_normalises ['&', '1', 'x', '&', '2', '.']
  obtain ⟨_, _, _, local₂, _⟩ := shieldAmpersands_normalises ['&', '1', '.', '2', '.', '&']
  exact ⟨first, second, local₁ _ _ rfl first, local₂ _ _ rfl second⟩

/-- Between digits and the full stop after them a text cannot be cut. -/
example : shieldAmpersands (['&', '1'] ++ ['.']) ≠
    shieldAmpersands ['&', '1'] ++ shieldAmpersands ['.'] := by
  decide +kernel

end HeaderBook.Source
