import HeaderBook.Proofs.SourceDocument

/-!
# Where documented statements stand

Documented statements can be looked for in any text, whether or not it was folded.
`EntryAt` says by positions which part of a text is an entry and what the entry is.
The search goes on after each statement it finds, and it may give up at a marker.
It misses nothing by that: no marker of a run stands inside a statement, so a
statement is found at every position where one begins (`found_eq_filterMap`).
-/

namespace HeaderBook.Declaration

open Text (isBlank isDigit isWord digitsValue digitLimit readNumber)

/-! ### What an entry is -/

/-- The marker of a run of comment lines begins at `start`. -/
def RunAt (text : Text) (start : Nat) (digits : Text) : Prop :=
  (⟨.docComment, digits⟩ : Marker).Valid ∧
    (⟨.docComment, digits⟩ : Marker).text <+: text.drop start

/-- What begins with the run at `start` ends with the semicolon at `last`: it is the
first one after `start`, and no other run begins before it. -/
structure StatementEnd (text : Text) (start last : Nat) : Prop where
  later : start < last
  semicolon : text[last]? = some ';'
  first : ∀ position, start < position → position < last → text[position]? ≠ some ';'
  alone : ∀ position digits, start < position → position < last → ¬ RunAt text position digits

/-- The characters of `text` from `start` through `last`. -/
def slice (text : Text) (start last : Nat) : Text :=
  (text.drop start).take (last + 1 - start)

/-- A text ends with the marker of a block. -/
def BlockEnds (text : Text) : Prop :=
  ∃ digits, (⟨.block, digits⟩ : Marker).Valid ∧ (⟨.block, digits⟩ : Marker).text <:+ text

/-- Spaces and tabs with a semicolon after them, at the beginning of `rest`. -/
def TrailerOf (rest trailer : Text) : Prop :=
  ∃ gap, (∀ c ∈ gap, c = ' ' ∨ c = '\t') ∧ trailer = gap ++ [';'] ∧ trailer <+: rest

/-- `word` begins `head`, and no word character follows it. -/
def WordBegins (word head : Text) : Prop :=
  ∃ rest, head = word ++ rest ∧ ∀ c, rest.head? = some c → isWord c = false

/-- A keyword of class-like statements begins `head`. -/
def ClassWordBegins (head : Text) : Prop :=
  WordBegins "class".toList head ∨ WordBegins "struct".toList head

/-- Any number of blanks, and after them a text with a property. -/
def BlanksThen (property : Text → Prop) (text : Text) : Prop :=
  ∃ blanks rest, text = blanks ++ rest ∧ (∀ c ∈ blanks, isBlank c = true) ∧ property rest

/-- A head of class-like statements: a keyword, or a template whose arguments open
here and have some `>` before the semicolon with a keyword after it. -/
def ClassLike (head : Text) : Prop :=
  ClassWordBegins head ∨ ∃ rest, head = "template".toList ++ rest ∧
    BlanksThen (fun opened => ∃ arguments closed, opened = '<' :: (arguments ++ '>' :: closed) ∧
      ';' ∉ arguments ∧ BlanksThen ClassWordBegins closed) rest

/-- `entry` is the entry of `text` whose run stands at `start` with `digits`, and whose
statement ends at `last`. -/
structure EntryAt (text : Text) (start last : Nat) (digits : Text) (entry : Declaration) :
    Prop where
  run : RunAt text start digits
  ends : StatementEnd text start last
  docIndex : entry.docIndex = digitsValue digits
  kind : entry.kind = .classLike ↔ ∃ head,
    slice text start last = (⟨.docComment, digits⟩ : Marker).text ++ head ∧ BlanksThen ClassLike head
  /-- A semicolon that follows a block belongs to the entry. -/
  extended : BlockEnds (slice text start last) → ∀ trailer,
    TrailerOf (text.drop (last + 1)) trailer → entry.text = slice text start last ++ trailer
  /-- Nothing else does. -/
  unextended : (BlockEnds (slice text start last) → ∀ trailer,
    ¬ TrailerOf (text.drop (last + 1)) trailer) → entry.text = slice text start last

/-! ### Reading a statement -/

/-- A run stands exactly where its marker is read. -/
theorem runAt_iff_read? {text digits : Text} {start : Nat} :
    RunAt text start digits ↔
      ∃ rest, MarkerKind.docComment.read? (text.drop start) = some (digits, rest) := by
  simp only [HeaderBook.Marker.kind_read?_eq_some_iff, exists_and_left, RunAt]
  exact and_congr_right fun _ => exists_congr fun _ => eq_comm

/-- No marker is read exactly where no run stands. -/
theorem read?_eq_none_iff {text : Text} :
    MarkerKind.docComment.read? text = none ↔ ∀ digits, ¬ RunAt text 0 digits := by
  simp only [runAt_iff_read?, List.drop_zero, not_exists, Option.eq_none_iff_forall_ne_some,
    Prod.forall, ne_eq]

/-- A run in the rest of a text is one in the whole text. -/
theorem runAt_drop {text digits : Text} {start position : Nat} :
    RunAt (text.drop start) position digits ↔ RunAt text (start + position) digits := by
  rw [RunAt, RunAt, List.drop_drop]

/-- A run begins with an ampersand. -/
theorem RunAt.getElem? {text digits : Text} {start : Nat} (run : RunAt text start digits) :
    text[start]? = some '&' := by
  obtain ⟨_, rest, equal⟩ := run
  have first := congrArg List.head? equal
  rw [List.head?_drop] at first
  rw [← first]
  rfl

/-- A statement reaches through the first semicolon, and no run begins before it. -/
theorem statement?_eq_some_iff {text body after : Text} :
    statement? text = some (body, after) ↔
      ∃ init, body = init ++ [';'] ∧ text = init ++ ';' :: after ∧ ';' ∉ init ∧
        ∀ position digits, position < init.length → ¬ RunAt text position digits := by
  fun_induction statement? text generalizing body after with
  | case1 => simp
  | case2 rest =>
      constructor
      · intro found
        simp only [Option.some.injEq, Prod.mk.injEq] at found
        exact ⟨[], found.1.symm, by rw [found.2]; rfl, List.not_mem_nil, by simp⟩
      · rintro ⟨init, rfl, whole, free, _⟩
        cases init with
        | nil => simp_all
        | cons c init => simp_all
  | case3 c rest notEnd run =>
      constructor
      · intro found
        simp at found
      · rintro ⟨init, rfl, whole, free, alone⟩
        obtain ⟨⟨digits, rest'⟩, read⟩ := Option.isSome_iff_exists.mp run
        cases init with
        | nil => exact absurd (List.cons.inj whole).1 notEnd
        | cons d init =>
            have begins : RunAt (c :: rest) 0 digits := runAt_iff_read?.mpr ⟨rest', read⟩
            exact absurd begins (alone 0 digits (Nat.zero_lt_succ _))
  | case4 c rest notEnd noRun inductionHypothesis =>
      have none : ∀ digits, ¬ RunAt (c :: rest) 0 digits := by
        rw [← read?_eq_none_iff]
        simpa using noRun
      rw [Option.map_eq_some_iff]
      constructor
      · rintro ⟨⟨inner, after'⟩, found, equal⟩
        obtain ⟨rfl, rfl⟩ := Prod.mk.inj equal
        obtain ⟨init, rfl, whole, free, alone⟩ := inductionHypothesis.mp found
        refine ⟨c :: init, rfl, by rw [whole]; rfl, by simp [free, Ne.symm notEnd], ?_⟩
        intro position digits inside
        cases position with
        | zero => exact none digits
        | succ position => exact alone position digits (Nat.lt_of_succ_lt_succ inside)
      · rintro ⟨init, rfl, whole, free, alone⟩
        cases init with
        | nil => exact absurd (List.cons.inj whole).1 notEnd
        | cons d init =>
            obtain ⟨rfl, tail⟩ := List.cons.inj whole
            refine ⟨(init ++ [';'], after), inductionHypothesis.mpr ⟨init, rfl, tail, ?_, ?_⟩, rfl⟩
            · exact fun member => free (List.mem_cons_of_mem _ member)
            · exact fun position digits inside => alone (position + 1) digits (Nat.succ_lt_succ inside)

/-- The marker of a run holds no semicolon. -/
theorem semicolon_not_mem_run {digits : Text} (valid : (⟨.docComment, digits⟩ : Marker).Valid) :
    ';' ∉ (⟨.docComment, digits⟩ : Marker).text :=
  valid.not_mem_text (by decide) (by decide) (by decide)

/-- Where a statement is read, it is what `statement?` finds after a run. -/
theorem read?_eq_some_iff {text : Text} {found : Found} :
    read? text = some found ↔
      (⟨.docComment, found.digits⟩ : Marker).Valid ∧ text = found.span ++ found.rest ∧
        statement? (found.body ++ found.rest) = some (found.body, found.rest) := by
  constructor
  · intro read
    have whole := span_append_of_read? read
    unfold read? at read
    split at read
    · simp at read
    next digits after marker =>
      obtain ⟨⟨body, rest⟩, statement, rfl⟩ := Option.map_eq_some_iff.mp read
      refine ⟨(HeaderBook.Marker.kind_read?_eq_some_iff.mp marker).1, whole.symm, ?_⟩
      rw [append_of_statement? statement]
      exact statement
  · rintro ⟨valid, rfl, statement⟩
    have marker := HeaderBook.Marker.kind_read?_text_append valid (found.body ++ found.rest)
    rw [← List.append_assoc] at marker
    rw [read?, Found.span, marker]
    simp [statement]

/-! ### Statements by positions -/

/-- The end of a statement in the rest of a text is one in the whole text. -/
theorem statementEnd_drop {text : Text} {start length : Nat} :
    StatementEnd (text.drop start) 0 length ↔ StatementEnd text start (start + length) := by
  constructor
  · intro ends
    refine ⟨by have := ends.later; omega, by simpa using ends.semicolon, ?_, ?_⟩
    · intro position lower upper
      have none := ends.first (position - start) (by omega) (by omega)
      rwa [List.getElem?_drop, Nat.add_sub_cancel' (by omega)] at none
    · intro position digits lower upper run
      refine ends.alone (position - start) digits (by omega) (by omega) (runAt_drop.mpr ?_)
      rwa [Nat.add_sub_cancel' (by omega)]
  · intro ends
    refine ⟨by have := ends.later; omega, by simpa using ends.semicolon, ?_, ?_⟩
    · intro position lower upper
      rw [List.getElem?_drop]
      exact ends.first (start + position) (by omega) (by omega)
    · intro position digits lower upper run
      exact ends.alone (start + position) digits (by omega) (by omega) (runAt_drop.mp run)

/-- A statement that is read ends with its last character. -/
theorem statementEnd_of_read? {text : Text} {found : Found} (read : read? text = some found) :
    ∃ last, last + 1 = found.span.length ∧ StatementEnd text 0 last := by
  obtain ⟨valid, whole, statement⟩ := read?_eq_some_iff.mp read
  obtain ⟨init, body, _, free, alone⟩ := statement?_eq_some_iff.mp statement
  obtain ⟨tail, marker, noAmpersand⟩ := valid.exists_text_eq
  have front : text = '&' :: (tail ++ init) ++ ';' :: found.rest := by
    rw [whole, Found.span, body, marker]
    simp
  have noSemicolon : ';' ∉ '&' :: (tail ++ init) := by
    have noMarker := semicolon_not_mem_run valid
    rw [marker] at noMarker
    simp_all
  have length : ('&' :: (tail ++ init)).length = tail.length + 1 + init.length := by
    simp only [List.length_cons, List.length_append]
    omega
  refine ⟨('&' :: (tail ++ init)).length, by simp [Found.span, body, marker]; omega, ?_⟩
  rw [front]
  refine ⟨Nat.zero_lt_succ _, by simp, ?_, ?_⟩
  · intro position _ inside semicolon
    rw [List.getElem?_append_left inside] at semicolon
    exact noSemicolon (List.mem_of_getElem? semicolon)
  · intro position digits positive inside run
    rcases Nat.lt_or_ge position (tail.length + 1) with inMarker | beyond
    · -- Inside the marker no other marker begins.
      have ampersand := run.getElem?
      obtain ⟨position, rfl⟩ := Nat.exists_eq_succ_of_ne_zero (Nat.ne_of_gt positive)
      rw [List.getElem?_append_left inside, List.getElem?_cons_succ,
        List.getElem?_append_left (Nat.lt_of_succ_lt_succ inMarker)] at ampersand
      exact noAmpersand (List.mem_of_getElem? ampersand)
    · refine alone (position - (tail.length + 1)) digits (by omega) ?_
      have rest : ('&' :: (tail ++ init) ++ ';' :: found.rest).drop (tail.length + 1) =
          found.body ++ found.rest := by
        simp [body]
      rw [← rest, runAt_drop, Nat.add_sub_cancel' beyond]
      exact run

/-- Where a run has an end, its statement is read. -/
theorem exists_read?_of_statementEnd {text digits : Text} {last : Nat} (run : RunAt text 0 digits)
    (ends : StatementEnd text 0 last) :
    ∃ found, read? text = some found ∧ found.digits = digits ∧ last + 1 = found.span.length := by
  obtain ⟨valid, after, whole⟩ := run
  rw [List.drop_zero] at whole
  have noMarker := semicolon_not_mem_run valid
  generalize marker : (⟨.docComment, digits⟩ : Marker).text = front at whole noMarker
  have positive : 0 < front.length := by
    obtain ⟨tail, equal, _⟩ := valid.exists_text_eq
    rw [← marker, equal]
    exact Nat.zero_lt_succ _
  have beyond : front.length ≤ last := by
    refine Nat.le_of_not_lt fun inside => ?_
    have semicolon := ends.semicolon
    rw [← whole, List.getElem?_append_left inside] at semicolon
    exact noMarker (List.mem_of_getElem? semicolon)
  obtain ⟨length, rfl⟩ := Nat.exists_eq_add_of_le beyond
  have semicolon : after[length]? = some ';' := by
    have there := ends.semicolon
    rwa [← whole, List.getElem?_append_right (by omega), Nat.add_sub_cancel_left] at there
  obtain ⟨inside, there⟩ := List.getElem?_eq_some_iff.mp semicolon
  have split : after = after.take length ++ ';' :: after.drop (length + 1) := by
    rw [← there, ← List.drop_eq_getElem_cons inside, List.take_append_drop]
  have size : (after.take length).length = length := List.length_take_of_le (Nat.le_of_lt inside)
  refine ⟨⟨digits, after.take length ++ [';'], after.drop (length + 1)⟩, ?_, rfl, ?_⟩
  · refine read?_eq_some_iff.mpr ⟨valid, ?_, statement?_eq_some_iff.mpr
      ⟨after.take length, rfl, by simp, ?_, ?_⟩⟩
    · rw [Found.span, marker, List.append_assoc, List.append_assoc, List.singleton_append, ← split,
        whole]
    · intro member
      obtain ⟨position, found⟩ := List.mem_iff_getElem?.mp member
      have below : position < length := by
        have bound := (List.getElem?_eq_some_iff.mp found).1
        omega
      refine ends.first (front.length + position) (by omega) (by omega) ?_
      rw [← whole, List.getElem?_append_right (by omega), Nat.add_sub_cancel_left]
      rwa [List.getElem?_take_of_lt below] at found
    · intro position digits' below begins
      rw [size] at below
      refine ends.alone (front.length + position) digits' (by omega) (by omega) (runAt_drop.mp ?_)
      rw [← whole, List.drop_left]
      rw [List.append_assoc, List.singleton_append, ← split] at begins
      exact begins
  · simp only [Found.span, marker, List.length_append, List.length_singleton, size]
    omega

/-! ### The search -/

/-- The search passes over text in which no run begins. -/
theorem found_append_of_alone {front rest : Text}
    (alone : ∀ position digits, position < front.length → ¬ RunAt (front ++ rest) position digits) :
    found (front ++ rest) = found rest := by
  induction front with
  | nil => rfl
  | cons c front inductionHypothesis =>
      have noRun : MarkerKind.docComment.read? (c :: (front ++ rest)) = none :=
        read?_eq_none_iff.mpr fun digits => alone 0 digits (Nat.zero_lt_succ _)
      rw [List.cons_append, Source.found_of_read?_eq_none (by rw [read?, noRun])]
      exact inductionHypothesis fun position digits inside =>
        alone (position + 1) digits (Nat.succ_lt_succ inside)

/-- Going on after a statement is going on after its first character. -/
theorem found_cons (c : Char) (rest : Text) :
    found (c :: rest) = (read? (c :: rest)).toList ++ found rest := by
  cases read : read? (c :: rest) with
  | none => rw [Source.found_of_read?_eq_none read]; rfl
  | some entry =>
      obtain ⟨last, size, ends⟩ := statementEnd_of_read? read
      have whole := span_append_of_read? read
      obtain ⟨d, span, equal⟩ := List.exists_cons_of_length_eq_add_one size.symm
      rw [equal, List.cons_append] at whole
      obtain ⟨rfl, tail⟩ := List.cons.inj whole
      rw [equal, List.length_cons] at size
      have passed : found rest = found entry.rest := by
        rw [← tail]
        refine found_append_of_alone fun position digits inside run => ?_
        rw [tail] at run
        have later : RunAt (d :: rest) (position + 1) digits := run
        rcases Nat.lt_or_ge (position + 1) last with before | atEnd
        · exact ends.alone _ digits (Nat.zero_lt_succ _) before later
        · obtain rfl : position + 1 = last := by omega
          have semicolon := ends.semicolon
          rw [later.getElem?] at semicolon
          exact absurd (Option.some.inj semicolon) (by decide)
      rw [Source.found_of_read?_eq_some read, passed]
      rfl

/-- A statement is found at every position where one begins. -/
theorem found_eq_filterMap (text : Text) :
    found text = (List.range text.length).filterMap fun start => read? (text.drop start) := by
  induction text with
  | nil => rw [found]; rfl
  | cons c rest inductionHypothesis =>
      rw [found_cons, inductionHypothesis, List.length_cons, List.range_succ_eq_map,
        List.filterMap_cons, List.filterMap_map]
      cases read : read? (c :: rest) <;> simp [read]

/-! ### Class-like heads -/

/-- The test for a first word, as a statement about the text. -/
theorem beginsWithWord_iff {head word : Text} :
    beginsWithWord head word = true ↔ WordBegins word head := by
  unfold beginsWithWord
  constructor
  · intro begins
    cases found : Text.after? word head with
    | none => simp [found] at begins
    | some rest =>
        refine ⟨rest, Text.after?_eq_some_iff.mp found, fun c first => ?_⟩
        obtain ⟨more, rfl⟩ := List.head?_eq_some_iff.mp first
        simpa [found] using begins
  · rintro ⟨rest, equal, outside⟩
    rw [Text.after?_eq_some_iff.mpr equal]
    cases rest with
    | nil => rfl
    | cons c rest => simp [outside c rfl]

/-- The test for a word that begins a class, as a statement about the text. -/
theorem beginsWithClassWord_iff {head : Text} :
    beginsWithClassWord head = true ↔ ClassWordBegins head := by
  simp [beginsWithClassWord, beginsWithWord_iff, ClassWordBegins]

/-- Blanks are skipped as far as they go, when what is looked for begins with none. -/
theorem blanksThen_iff {property : Text → Prop}
    (solid : ∀ c rest, property (c :: rest) → isBlank c = false) {text : Text} :
    BlanksThen property text ↔ property (text.dropWhile isBlank) := by
  constructor
  · rintro ⟨blanks, rest, rfl, all, holds⟩
    rw [List.dropWhile_append_of_pos all]
    cases rest with
    | nil => exact holds
    | cons c rest => rwa [List.dropWhile_cons_of_neg (by simp [solid c rest holds])]
  · intro holds
    refine ⟨text.takeWhile isBlank, text.dropWhile isBlank, ?_, ?_, holds⟩
    · exact List.takeWhile_append_dropWhile.symm
    · exact List.all_eq_true.mp List.all_takeWhile

/-- No keyword begins with a blank. -/
theorem ClassWordBegins.solid {c : Char} {rest : Text} (begins : ClassWordBegins (c :: rest)) :
    isBlank c = false := by
  rcases begins with ⟨tail, equal, _⟩ | ⟨tail, equal, _⟩
  · rw [(List.cons.inj equal).1]
    decide
  · rw [(List.cons.inj equal).1]
    decide

/-- A head like that of a class does not begin with a blank. -/
theorem ClassLike.solid {c : Char} {rest : Text} (like : ClassLike (c :: rest)) :
    isBlank c = false := by
  rcases like with begins | ⟨tail, equal, _⟩
  · exact begins.solid
  · rw [(List.cons.inj equal).1]
    decide

/-- Some `>` before the first semicolon has a keyword after it. -/
theorem closesBeforeClassWord_iff {text : Text} :
    closesBeforeClassWord text = true ↔ ∃ arguments closed,
      text = arguments ++ '>' :: closed ∧ ';' ∉ arguments ∧ BlanksThen ClassWordBegins closed := by
  induction text with
  | nil => simp [closesBeforeClassWord]
  | cons c rest inductionHypothesis =>
      rw [closesBeforeClassWord]
      by_cases semicolon : c = ';'
      · rw [if_pos semicolon]
        refine iff_of_false (by simp) ?_
        rintro ⟨arguments, closed, equal, free, _⟩
        cases arguments with
        | nil => exact absurd ((List.cons.inj equal).1.symm.trans semicolon) (by decide)
        | cons d arguments => exact free (by simp [← (List.cons.inj equal).1, semicolon])
      · rw [if_neg semicolon, Bool.or_eq_true, Bool.and_eq_true, decide_eq_true_eq,
          beginsWithClassWord_iff, ← blanksThen_iff fun _ _ => ClassWordBegins.solid,
          inductionHypothesis]
        constructor
        · rintro (⟨rfl, begins⟩ | ⟨arguments, closed, rfl, free, begins⟩)
          · exact ⟨[], rest, rfl, List.not_mem_nil, begins⟩
          · exact ⟨c :: arguments, closed, rfl, by simp [free, Ne.symm semicolon], begins⟩
        · rintro ⟨arguments, closed, equal, free, begins⟩
          cases arguments with
          | nil =>
              obtain ⟨rfl, rfl⟩ := List.cons.inj equal
              exact .inl ⟨rfl, begins⟩
          | cons d arguments =>
              obtain ⟨rfl, rfl⟩ := List.cons.inj equal
              exact .inr ⟨arguments, closed, rfl, fun member => free (by simp [member]), begins⟩

/-- The test for the head of a class, as a statement about the text. -/
theorem isClassHead_iff {head : Text} : isClassHead head = true ↔ ClassLike head := by
  rw [isClassHead, Bool.or_eq_true, beginsWithClassWord_iff, ClassLike]
  refine or_congr_right ?_
  constructor
  · intro template
    cases found : Text.after? "template".toList head with
    | none =>
        rw [found] at template
        exact absurd template Bool.false_ne_true
    | some rest =>
        refine ⟨rest, Text.after?_eq_some_iff.mp found, ?_⟩
        rw [blanksThen_iff (by rintro c rest ⟨_, _, equal, _⟩; rw [(List.cons.inj equal).1]; decide)]
        simp only [found] at template
        split at template
        next arguments opened =>
          obtain ⟨inner, closed, rfl, free, begins⟩ := closesBeforeClassWord_iff.mp template
          exact ⟨inner, closed, opened, free, begins⟩
        · simp at template
  · rintro ⟨rest, equal, template⟩
    rw [blanksThen_iff (by rintro c rest ⟨_, _, equal, _⟩; rw [(List.cons.inj equal).1]; decide)]
      at template
    obtain ⟨inner, closed, opened, free, begins⟩ := template
    rw [Text.after?_eq_some_iff.mpr equal]
    simp only [opened]
    exact closesBeforeClassWord_iff.mpr ⟨inner, closed, rfl, free, begins⟩

/-! ### The text of an entry -/

/-- The test for a block at the end, as a statement about the text. -/
theorem blockEnds_iff {text : Text} : BlockEnds text ↔ endsInBlock text = true := by
  rw [Source.endsInBlock_iff]
  constructor
  · rintro ⟨digits, valid, front, equal⟩
    exact ⟨front, digits, valid, equal.symm⟩
  · rintro ⟨front, digits, valid, equal⟩
    exact ⟨digits, valid, front, equal.symm⟩

/-- The trailer is determined by the text after a statement. -/
theorem trailerOf_iff {rest found : Text} :
    TrailerOf rest found ↔ found ≠ [] ∧ trailer rest = found := by
  unfold trailer
  constructor
  · rintro ⟨gap, all, rfl, more, rfl⟩
    have blank : ∀ c ∈ gap, (decide (c = ' ') || decide (c = '\t')) = true := by
      intro c member
      simpa using all c member
    refine ⟨by simp, ?_⟩
    rw [List.append_assoc, List.takeWhile_append_of_pos blank]
    simp
  · rintro ⟨nonempty, equal⟩
    have all := List.all_eq_true.mp
      (List.all_takeWhile (p := fun c => decide (c = ' ') || decide (c = '\t')) (l := rest))
    have whole := List.prefix_iff_eq_append.mp
      (List.takeWhile_prefix (l := rest) fun c => decide (c = ' ') || decide (c = '\t'))
    generalize rest.takeWhile (fun c => decide (c = ' ') || decide (c = '\t')) = gap at all whole equal
    simp only at equal
    split at equal
    next more dropped =>
      rw [dropped] at whole
      refine ⟨gap, fun c member => by simpa using all c member, equal.symm, more, ?_⟩
      rw [← equal, List.append_assoc]
      exact whole
    · exact absurd equal.symm nonempty

/-! ### Entries by positions -/

/-- The entry of a statement, however many digits its run's marker has. -/
def Found.entry (found : Found) : Declaration :=
  { kind := found.kind, text := found.text, docIndex := digitsValue found.digits }

/-- A statement whose run has a number that can be read is an entry. -/
theorem Found.declaration_eq_ok {found : Found} (short : found.digits.length ≤ digitLimit) :
    found.declaration = .ok found.entry := by
  rw [Found.declaration, readNumber, if_neg (Nat.not_lt.mpr short)]
  rfl

/-- What is read at a position is the entry there. -/
theorem entryAt_of_read? {text : Text} {start : Nat} {found : Found}
    (read : read? (text.drop start) = some found) :
    ∃ last, start + found.span.length = last + 1 ∧ EntryAt text start last found.digits found.entry := by
  obtain ⟨length, size, ends⟩ := statementEnd_of_read? read
  obtain ⟨valid, whole, _⟩ := read?_eq_some_iff.mp read
  have sliced : slice text start (start + length) = found.span := by
    rw [slice, whole, Nat.add_assoc, Nat.add_sub_cancel_left, size, List.take_left]
  have rest : text.drop (start + length + 1) = found.rest := by
    rw [Nat.add_assoc, ← List.drop_drop, whole, size, List.drop_left]
  refine ⟨start + length, by omega, ?_, statementEnd_drop.mp ends, rfl, ?_, ?_, ?_⟩
  · refine ⟨valid, found.body ++ found.rest, ?_⟩
    rw [whole, Found.span, List.append_assoc]
  · have head : (∃ head, found.span = (⟨.docComment, found.digits⟩ : Marker).text ++ head ∧
        BlanksThen ClassLike head) ↔ BlanksThen ClassLike found.body := by
      simp [Found.span]
    rw [sliced, head, blanksThen_iff fun _ _ => ClassLike.solid, ← isClassHead_iff]
    simp [Found.entry, Found.kind]
  · intro block trailer' follows
    rw [rest, trailerOf_iff] at follows
    rw [sliced, blockEnds_iff] at block
    rw [sliced, Found.entry, Found.text, if_pos block, follows.2]
  · intro nothing
    rw [sliced, rest] at nothing
    rw [sliced, Found.entry, Found.text]
    split
    next block =>
      have empty : trailer found.rest = [] := by
        cases follows : trailer found.rest with
        | nil => rfl
        | cons c more =>
            exact absurd (trailerOf_iff.mpr ⟨List.cons_ne_nil c more, follows⟩)
              (nothing (blockEnds_iff.mpr block) _)
      rw [empty, List.append_nil]
    · rfl

/-- A position has at most one entry. -/
theorem EntryAt.unique {text digits : Text} {start last : Nat} {first second : Declaration}
    (one : EntryAt text start last digits first) (other : EntryAt text start last digits second) :
    first = second := by
  have kinds : first.kind = second.kind := by
    have same := one.kind.trans other.kind.symm
    cases firstKind : first.kind <;> cases secondKind : second.kind <;> simp_all
  have texts : first.text = second.text := by
    by_cases extended : BlockEnds (slice text start last) ∧
        ∃ trailer, TrailerOf (text.drop (last + 1)) trailer
    · obtain ⟨block, trailer, follows⟩ := extended
      rw [one.extended block trailer follows, other.extended block trailer follows]
    · have nothing : BlockEnds (slice text start last) → ∀ trailer,
          ¬ TrailerOf (text.drop (last + 1)) trailer :=
        fun block trailer follows => extended ⟨block, trailer, follows⟩
      rw [one.unextended nothing, other.unextended nothing]
  have indices := one.docIndex.trans other.docIndex.symm
  cases first
  cases second
  simp_all

/-- The entries of a text are what is read at their positions. -/
theorem entryAt_iff {text : Text} {start : Nat} {entry : Declaration} :
    (∃ last digits, EntryAt text start last digits entry) ↔
      ∃ found, read? (text.drop start) = some found ∧ entry = found.entry := by
  constructor
  · rintro ⟨last, digits, stands⟩
    obtain ⟨length, rfl⟩ := Nat.exists_eq_add_of_lt stands.ends.later
    have run : RunAt (text.drop start) 0 digits := runAt_drop.mpr stands.run
    have ends := stands.ends
    rw [Nat.add_assoc, ← statementEnd_drop] at ends
    obtain ⟨found, read, rfl, size⟩ := exists_read?_of_statementEnd run ends
    obtain ⟨last, total, again⟩ := entryAt_of_read? read
    obtain rfl : last = start + length + 1 := by omega
    exact ⟨found, read, stands.unique again⟩
  · rintro ⟨found, read, rfl⟩
    obtain ⟨last, _, stands⟩ := entryAt_of_read? read
    exact ⟨last, found.digits, stands⟩

/-- A run after an entry's own stands beyond the entry, its trailer included. -/
theorem EntryAt.le_of_runAt {text digits later : Text} {start last position : Nat}
    {entry : Declaration} (stands : EntryAt text start last digits entry)
    (run : RunAt text position later) (after : start < position) :
    start + entry.text.length ≤ position := by
  have ampersand := run.getElem?
  have inside : last < text.length := (List.getElem?_eq_some_iff.mp stands.ends.semicolon).1
  have sliced : (slice text start last).length = last + 1 - start := by
    rw [slice, List.length_take, List.length_drop]
    omega
  have order := stands.ends.later
  have beyond : last < position := by
    rcases Nat.lt_trichotomy position last with before | rfl | beyond
    · exact absurd run (stands.ends.alone position later after before)
    · rw [stands.ends.semicolon] at ampersand
      exact absurd (Option.some.inj ampersand) (by decide)
    · exact beyond
  by_cases extended : BlockEnds (slice text start last) ∧
      ∃ trailer, TrailerOf (text.drop (last + 1)) trailer
  · obtain ⟨block, trailer, follows⟩ := extended
    rw [stands.extended block trailer follows, List.length_append, sliced]
    obtain ⟨gap, blank, rfl, more, whole⟩ := follows
    -- A trailer holds no ampersand.
    refine Nat.le_of_not_lt fun within => ?_
    have inside : position - (last + 1) < (gap ++ [';']).length := by omega
    have there : (gap ++ [';'])[position - (last + 1)]? = some '&' := by
      have longer : (gap ++ [';'] ++ more)[position - (last + 1)]? = some '&' := by
        rw [whole, List.getElem?_drop, Nat.add_sub_cancel' beyond]
        exact ampersand
      rwa [List.getElem?_append_left inside] at longer
    rcases List.mem_append.mp (List.mem_of_getElem? there) with inGap | isLast
    · rcases blank _ inGap with wrong | wrong
      · exact absurd wrong (by decide)
      · exact absurd wrong (by decide)
    · exact absurd (List.mem_singleton.mp isLast) (by decide)
  · rw [stands.unextended fun block trailer follows => extended ⟨block, trailer, follows⟩, sliced]
    omega

/-- The entries of a text with their positions. -/
def places (text : Text) : List (Nat × Declaration) :=
  (List.range text.length).filterMap fun start =>
    (read? (text.drop start)).map fun found => (start, found.entry)

/-- The entries are listed in the order of their places. -/
theorem map_snd_places (text : Text) : (places text).map Prod.snd = (found text).map Found.entry := by
  rw [places, found_eq_filterMap, List.map_filterMap, List.map_filterMap]
  simp only [Option.map_map]
  rfl

/-- The places are exactly those at which an entry stands. -/
theorem mem_places_iff {text : Text} {start : Nat} {entry : Declaration} :
    (start, entry) ∈ places text ↔ ∃ last digits, EntryAt text start last digits entry := by
  rw [entryAt_iff, places, List.mem_filterMap]
  constructor
  · rintro ⟨position, _, found⟩
    obtain ⟨statement, read, equal⟩ := Option.map_eq_some_iff.mp found
    obtain ⟨rfl, rfl⟩ := Prod.mk.inj equal
    exact ⟨statement, read, rfl⟩
  · rintro ⟨statement, read, rfl⟩
    refine ⟨start, List.mem_range.mpr ?_, by rw [read]; rfl⟩
    obtain ⟨last, _, stands⟩ := entryAt_of_read? read
    have inside := (List.getElem?_eq_some_iff.mp stands.ends.semicolon).1
    have order := stands.ends.later
    omega

/-- Each entry ends before the next one begins. -/
theorem pairwise_places (text : Text) :
    (places text).Pairwise fun first second => first.1 + first.2.text.length ≤ second.1 := by
  rw [places, List.pairwise_filterMap]
  refine List.pairwise_lt_range.imp fun {position later} before => ?_
  intro first readFirst second readSecond
  obtain ⟨one, read, rfl⟩ := Option.map_eq_some_iff.mp readFirst
  obtain ⟨other, readOther, rfl⟩ := Option.map_eq_some_iff.mp readSecond
  obtain ⟨_, _, stands⟩ := entryAt_of_read? read
  obtain ⟨_, _, follows⟩ := entryAt_of_read? readOther
  exact stands.le_of_runAt follows.run before

/-- The declarations of a text are its entries in text order, provided that the numbers
of their runs can be read: a run has an entry exactly when its statement has an end,
and entries never overlap. -/
theorem ofFolded_eq_entries (text : Text)
    (readable : ∀ start last digits, RunAt text start digits → StatementEnd text start last →
      digits.length ≤ digitLimit) :
    ∃ entries : List (Nat × Declaration),
      ofFolded text = .ok (entries.map Prod.snd) ∧
      (∀ start digits, RunAt text start digits →
        ((∃ entry, (start, entry) ∈ entries) ↔ ∃ last, StatementEnd text start last)) ∧
      (∀ start entry, (start, entry) ∈ entries ↔
        ∃ last digits, EntryAt text start last digits entry) ∧
      (entries.Pairwise fun first second => first.1 + first.2.text.length ≤ second.1) ∧
      classes (entries.map Prod.snd) =
        (entries.filter fun place => place.2.kind = .classLike).map Prod.snd ∧
      functions (entries.map Prod.snd) =
        (entries.filter fun place => place.2.kind = .functionLike).map Prod.snd := by
  refine ⟨places text, ?_, ?_, fun _ _ => mem_places_iff, pairwise_places text, ?_, ?_⟩
  · rw [map_snd_places]
    refine mapM_eq_ok fun statement member => Found.declaration_eq_ok ?_
    rw [found_eq_filterMap, List.mem_filterMap] at member
    obtain ⟨start, _, read⟩ := member
    obtain ⟨last, _, stands⟩ := entryAt_of_read? read
    exact readable start last statement.digits stands.run stands.ends
  · intro start digits run
    simp only [mem_places_iff]
    constructor
    · rintro ⟨entry, last, _, stands⟩
      exact ⟨last, stands.ends⟩
    · rintro ⟨last, ends⟩
      obtain ⟨length, rfl⟩ := Nat.exists_eq_add_of_lt ends.later
      rw [Nat.add_assoc, ← statementEnd_drop] at ends
      obtain ⟨found, read, _, _⟩ := exists_read?_of_statementEnd (runAt_drop.mpr run) ends
      obtain ⟨last, _, stands⟩ := entryAt_of_read? read
      exact ⟨found.entry, last, found.digits, stands⟩
  · rw [classes, List.filter_map]
    rfl
  · rw [functions, List.filter_map]
    rfl

/-- A class with a folded body, a run without a statement of its own, and a function. -/
def documentedPair : Text :=
  "&DOC0: class A &BLOCK0; ;&DOC1:#if\n&DOC2:int f();".toList

/-- The run between two statements has no end of its own and no entry. -/
theorem ofFolded_documentedPair :
    (∀ start last digits, RunAt documentedPair start digits →
      StatementEnd documentedPair start last → digits.length ≤ digitLimit) ∧
    ofFolded documentedPair = .ok
      [⟨.classLike, "&DOC0: class A &BLOCK0; ;".toList, 0⟩,
        ⟨.functionLike, "&DOC2:int f();".toList, 2⟩] ∧
    ∃ entries : List (Nat × Declaration), ofFolded documentedPair = .ok (entries.map Prod.snd) ∧
      ∀ start entry, (start, entry) ∈ entries ↔
        ∃ last digits, EntryAt documentedPair start last digits entry := by
  have readable : ∀ start last digits, RunAt documentedPair start digits →
      StatementEnd documentedPair start last → digits.length ≤ digitLimit := by
    intro start last digits run _
    have bound := run.2.length_le
    have whole : documentedPair.length ≤ digitLimit := by decide +kernel
    simp only [Marker.text, List.length_append, List.length_drop] at bound
    omega
  obtain ⟨entries, found, _, described, _⟩ := ofFolded_eq_entries documentedPair readable
  exact ⟨readable, by decide +kernel, entries, found, described⟩

end HeaderBook.Declaration
