import HeaderBook.Proofs.WorkingText

/-!
# The statements of a working text

Documented statements are found in a text character by character. On the items of
a clean text the same search goes item by item: a statement begins at the marker of
a run and reaches through the first semicolon or block marker, unless another run
comes first. Here a block counts as an end of its own, where the text only has the
semicolon that closes the block's marker.
-/

namespace HeaderBook.Source

open Text (isDigit)

namespace Item

/-- The digits of an item's marker. -/
def digits (item : Item) : Text :=
  match item.segment with
  | .plain _ => []
  | .marker found => found.digits

/-- The kind of an item's marker. -/
def kind? (item : Item) : Option MarkerKind :=
  match item.segment with
  | .plain _ => none
  | .marker found => some found.kind

/-- A statement ends at a semicolon and at a folded block. -/
def isEnd (item : Item) : Bool :=
  item.segment = .plain ';' || item.kind? = some .block

/-- The marker of a run of comment lines. -/
def isRun (item : Item) : Bool :=
  item.kind? = some .docComment

/-- The items of a statement through its end, and what follows them; nothing if a
run, or the end of the items, comes first. -/
def statement? : List Item → Option (List Item × List Item)
  | [] => none
  | item :: rest =>
    if item.isEnd then some ([item], rest)
    else if item.isRun then none
    else (statement? rest).map fun (body, after) => (item :: body, after)

/-- An item that is a space or a tab. -/
def isGap (item : Item) : Bool :=
  item.segment = .plain ' ' || item.segment = .plain '\t'

/-- Spaces and tabs with a semicolon after them. -/
def trailer : List Item → List Item
  | [] => []
  | item :: rest =>
    if item.segment = .plain ';' then [item]
    else if item.isGap && !(trailer rest).isEmpty then item :: trailer rest
    else []

end Item

/-- A documented statement among items: the run that documents it, the items
through its end, and what follows. -/
structure Entry where
  run : Item
  body : List Item
  rest : List Item

namespace Entry

/-- The statement ends with a folded block. -/
def endsInBlock (entry : Entry) : Bool :=
  entry.body.getLast?.any fun item => item.kind? = some .block

/-- The items of the entry, with the semicolon that may follow a block. -/
def items (entry : Entry) : List Item :=
  entry.run :: entry.body ++ if entry.endsInBlock then Item.trailer entry.rest else []

/-- The entry as it is found in the text. -/
def found (entry : Entry) : Declaration.Found :=
  ⟨entry.run.digits, entry.body.flatMap Item.text, entry.rest.flatMap Item.text⟩

end Entry

/-- The documented statements among items, left to right. -/
def entries : List Item → List Entry
  | [] => []
  | item :: rest =>
    if item.isRun then
      match Item.statement? rest with
      | some (body, after) => ⟨item, body, after⟩ :: entries rest
      | none => entries rest
    else entries rest

/-- A trailer is the beginning of the items, and no run stands in it. -/
theorem Item.exists_trailer_append (items : List Item) :
    ∃ more, items = Item.trailer items ++ more ∧
      ∀ item ∈ Item.trailer items, item.isRun = false := by
  induction items with
  | nil => exact ⟨[], rfl, nofun⟩
  | cons item items inductionHypothesis =>
      obtain ⟨more, split, noRun⟩ := inductionHypothesis
      rw [Item.trailer]
      split
      next semicolon =>
        refine ⟨items, rfl, fun other member => ?_⟩
        rw [List.mem_singleton.mp member]
        simp [Item.isRun, Item.kind?, semicolon]
      · split
        next gap =>
          refine ⟨more, by rw [List.cons_append, ← split], fun other member => ?_⟩
          rcases List.mem_cons.mp member with rfl | later
          · have plain : other.segment = .plain ' ' ∨ other.segment = .plain '\t' := by
              simp only [Item.isGap, Bool.and_eq_true, Bool.or_eq_true, decide_eq_true_eq] at gap
              exact gap.1
            rcases plain with segment | segment
            · simp [Item.isRun, Item.kind?, segment]
            · simp [Item.isRun, Item.kind?, segment]
          · exact noRun other later
        · exact ⟨item :: items, rfl, nofun⟩

/-- The trailer of a statement is taken from the items after it. -/
theorem Item.mem_of_mem_trailer {items : List Item} {item : Item}
    (member : item ∈ Item.trailer items) : item ∈ items := by
  obtain ⟨more, split, _⟩ := Item.exists_trailer_append items
  rw [split]
  exact List.mem_append_left _ member

/-! ### Statements -/

/-- An item's text, by what kind of item it is. -/
theorem Item.text_cases {item : Item} (valid : item.segment.Valid) :
    (∃ c, c ≠ '&' ∧ item.segment = .plain c ∧ item.text = [c]) ∨
      ∃ found : Marker, found.Valid ∧ item.segment = .marker found ∧ item.text = found.text := by
  obtain ⟨segment, covered⟩ := item
  cases segment with
  | plain c => exact .inl ⟨c, valid, rfl, rfl⟩
  | marker found => exact .inr ⟨found, valid, rfl, rfl⟩

/-- A run begins with an ampersand. -/
theorem read?_docComment_of_ne {c : Char} (plain : c ≠ '&') (rest : Text) :
    MarkerKind.docComment.read? (c :: rest) = none := by
  simp [MarkerKind.read?, MarkerKind.opening, Text.after?, plain.symm]

/-- A statement passes over what holds neither semicolon nor ampersand. -/
theorem statement?_append {text : Text} (noEnd : ';' ∉ text) (noMarker : '&' ∉ text) (rest : Text) :
    Declaration.statement? (text ++ rest) =
      (Declaration.statement? rest).map fun (body, after) => (text ++ body, after) := by
  induction text with
  | nil => simp
  | cons c text inductionHypothesis =>
      rw [List.mem_cons, not_or] at noEnd noMarker
      have none := read?_docComment_of_ne (Ne.symm noMarker.1) (text ++ rest)
      rw [List.cons_append, Declaration.statement?, if_neg (Ne.symm noEnd.1)]
      simp [none, inductionHypothesis noEnd.2 noMarker.2, Function.comp_def]

/-- The characters of a marker after its ampersand and before its closing
character. -/
def inside (found : Marker) : Text :=
  found.kind.opening.tail ++ found.digits

/-- A marker is an ampersand, its inside and its closing character. -/
theorem Marker.text_eq_inside (found : Marker) :
    found.text = '&' :: (inside found ++ [found.kind.closing]) := by
  obtain ⟨kind, digits⟩ := found
  cases kind <;> simp [HeaderBook.Marker.text, inside, MarkerKind.opening, MarkerKind.closing]

/-- The inside of a marker has digits and the letters of its kind only. -/
theorem not_mem_inside {found : Marker} (valid : found.Valid) {c : Char} (noDigit : isDigit c = false)
    (noLetter : c ∉ ['D', 'O', 'C', 'B', 'L', 'K']) : c ∉ inside found := by
  have outside : c ∉ found.digits := by
    intro member
    simp [valid.digits c member] at noDigit
  obtain ⟨kind, digits⟩ := found
  simp only at outside
  cases kind <;> simp_all [inside, MarkerKind.opening]

/-- A statement passes over a generic marker and ends at a block marker. -/
theorem statement?_marker {found : Marker} (valid : found.Valid) (rest : Text) :
    Declaration.statement? (found.text ++ rest) =
      match found.kind with
      | .generic =>
        (Declaration.statement? rest).map fun (body, after) => (found.text ++ body, after)
      | .docComment => none
      | .block => some (found.text, rest) := by
  have noEnd : ';' ∉ inside found := not_mem_inside valid (by decide) (by decide)
  have noMarker : '&' ∉ inside found := not_mem_inside valid (by decide) (by decide)
  have doc : (MarkerKind.docComment.read? (found.text ++ rest)).isSome =
      decide (found.kind = .docComment) := by
    by_cases docKind : found.kind = .docComment
    · have own := HeaderBook.Marker.kind_read?_text_append valid rest
      rw [docKind] at own
      simp [own, docKind]
    · have other := HeaderBook.Marker.other_read?_text_append valid (Ne.symm docKind) rest
      simp [other, docKind]
  have first : Declaration.statement? (found.text ++ rest) =
      if found.kind = .docComment then none
      else (Declaration.statement? (inside found ++ found.kind.closing :: rest)).map
        fun (body, after) => ('&' :: body, after) := by
    have shape : found.text ++ rest = '&' :: (inside found ++ found.kind.closing :: rest) := by
      simp [Marker.text_eq_inside]
    rw [shape] at doc ⊢
    rw [Declaration.statement?, if_neg (by decide), doc]
    simp
  rw [first, statement?_append noEnd noMarker]
  cases kind : found.kind with
  | generic =>
      have noEnd : ';' ∉ ['.'] := by decide
      have dot := statement?_append noEnd (by decide) rest
      simp only [List.cons_append, List.nil_append] at dot
      simp [MarkerKind.closing, dot, Marker.text_eq_inside, kind, Function.comp_def]
  | docComment => simp
  | block =>
      simp [MarkerKind.closing, Declaration.statement?, Marker.text_eq_inside, kind]

/-- Statements are found item by item. -/
theorem statement?_items {items : List Item} (valid : ∀ item ∈ items, item.segment.Valid) :
    Declaration.statement? (items.flatMap Item.text) =
      (Item.statement? items).map fun (body, after) =>
        (body.flatMap Item.text, after.flatMap Item.text) := by
  induction items with
  | nil => rfl
  | cons item items inductionHypothesis =>
      have tail := inductionHypothesis fun other member => valid other (by simp [member])
      rw [List.flatMap_cons, Item.statement?]
      rcases Item.text_cases (valid item (by simp)) with
        ⟨c, plain, segment, text⟩ | ⟨found, validMarker, segment, text⟩
      · have notRun : item.isRun = false := by simp [Item.isRun, Item.kind?, segment]
        by_cases semicolon : c = ';'
        · have ends : item.isEnd = true := by simp [Item.isEnd, segment, semicolon]
          simp [text, semicolon, Declaration.statement?, ends]
        · have goesOn : item.isEnd = false := by
            simp [Item.isEnd, Item.kind?, segment, semicolon]
          have noEnd : ';' ∉ [c] := by simpa using Ne.symm semicolon
          have passed := statement?_append noEnd (by simpa using plain.symm)
            (items.flatMap Item.text)
          simp [text, goesOn, notRun] at passed ⊢
          simp [passed, tail, Function.comp_def, text]
      · rw [text, statement?_marker validMarker]
        cases kind : found.kind with
        | generic =>
            have goesOn : item.isEnd = false := by simp [Item.isEnd, Item.kind?, segment, kind]
            have notRun : item.isRun = false := by simp [Item.isRun, Item.kind?, segment, kind]
            simp [goesOn, notRun, tail, Function.comp_def, text]
        | docComment =>
            have goesOn : item.isEnd = false := by simp [Item.isEnd, Item.kind?, segment, kind]
            have isRun : item.isRun = true := by simp [Item.isRun, Item.kind?, segment, kind]
            simp [goesOn, isRun]
        | block =>
            have ends : item.isEnd = true := by simp [Item.isEnd, Item.kind?, segment, kind]
            simp [ends, text]

/-- A statement is what it was cut from, and only its last item ends it. -/
theorem Item.of_statement? {items body after : List Item}
    (found : Item.statement? items = some (body, after)) :
    items = body ++ after ∧ ∃ init last, body = init ++ [last] ∧ last.isEnd = true ∧
      ∀ item ∈ init, item.isEnd = false ∧ item.isRun = false := by
  induction items generalizing body with
  | nil => simp [Item.statement?] at found
  | cons item items inductionHypothesis =>
      rw [Item.statement?] at found
      split at found
      next ends =>
        obtain ⟨rfl, rfl⟩ := Prod.mk.inj (Option.some.inj found)
        exact ⟨rfl, [], item, rfl, ends, by simp⟩
      next goesOn =>
        split at found
        · simp at found
        next notRun =>
          obtain ⟨⟨body', after'⟩, inner, equal⟩ := Option.map_eq_some_iff.mp found
          obtain ⟨rfl, rfl⟩ := Prod.mk.inj equal
          obtain ⟨rfl, init, last, rfl, ends, others⟩ := inductionHypothesis inner
          refine ⟨rfl, item :: init, last, rfl, ends, ?_⟩
          intro other member
          rcases List.mem_cons.mp member with rfl | later
          · exact ⟨by simpa using goesOn, by simpa using notRun⟩
          · exact others other later

/-- A statement reaches through the first end, if no run comes before it. -/
theorem Item.statement?_eq_some {init after : List Item} {last : Item} (ends : last.isEnd = true)
    (others : ∀ item ∈ init, item.isEnd = false ∧ item.isRun = false) :
    Item.statement? (init ++ last :: after) = some (init ++ [last], after) := by
  induction init with
  | nil =>
      rw [List.nil_append, Item.statement?, if_pos ends]
      rfl
  | cons item init inductionHypothesis =>
      have tail := inductionHypothesis fun other member => others other (List.mem_cons_of_mem _ member)
      obtain ⟨noEnd, noRun⟩ := others item List.mem_cons_self
      simp [Item.statement?, noEnd, noRun, tail]

/-- A statement ends at a semicolon and at a folded block. -/
theorem Item.isEnd_iff {item : Item} :
    item.isEnd = true ↔ item.segment = .plain ';' ∨ item.kind? = some .block := by
  simp [Item.isEnd]

/-- What ends a statement is no run. -/
theorem Item.isRun_of_isEnd {item : Item} (ends : item.isEnd = true) : item.isRun = false := by
  unfold Item.isRun
  rcases Item.isEnd_iff.mp ends with semicolon | block
  · simp [Item.kind?, semicolon]
  · simp [block]

/-- No run stands inside a statement. -/
theorem Item.isRun_of_mem_statement? {items body after : List Item}
    (found : Item.statement? items = some (body, after)) :
    ∀ item ∈ body, item.isRun = false := by
  obtain ⟨_, init, last, rfl, ends, others⟩ := Item.of_statement? found
  intro item member
  rcases List.mem_append.mp member with inInit | isLast
  · exact (others item inInit).2
  · rw [List.mem_singleton.mp isLast]
    exact Item.isRun_of_isEnd ends

/-- After its run, an entry is the beginning of what follows, and no run stands in it. -/
theorem Entry.exists_tail {rest body after : List Item}
    (found : Item.statement? rest = some (body, after)) (run : Item) :
    ∃ tail more, Entry.items ⟨run, body, after⟩ = run :: tail ∧ rest = tail ++ more ∧
      ∀ item ∈ tail, item.isRun = false := by
  have bodyNoRun := Item.isRun_of_mem_statement? found
  obtain ⟨rfl, _⟩ := Item.of_statement? found
  obtain ⟨more, split, noRun⟩ := Item.exists_trailer_append after
  rw [Entry.items]
  split
  · refine ⟨body ++ Item.trailer after, more, rfl, ?_, fun item member => ?_⟩
    · rw [List.append_assoc, ← split]
    · rcases List.mem_append.mp member with inBody | inTrailer
      · exact bodyNoRun item inBody
      · exact noRun item inTrailer
  · exact ⟨body, after, by rw [List.append_nil], rfl, bodyNoRun⟩

/-! ### The search -/

/-- Where no statement is read the search goes on one character later. -/
theorem found_of_read?_eq_none {c : Char} {rest : Text}
    (none : Declaration.read? (c :: rest) = none) :
    Declaration.found (c :: rest) = Declaration.found rest := by
  rw [Declaration.found]
  split
  next read => simp [none] at read
  · rfl

/-- Where a statement is read the search goes on behind it. -/
theorem found_of_read?_eq_some {c : Char} {rest : Text} {entry : Declaration.Found}
    (some : Declaration.read? (c :: rest) = some entry) :
    Declaration.found (c :: rest) = entry :: Declaration.found entry.rest := by
  rw [Declaration.found]
  split
  next read =>
    simp only [some, Option.some.injEq] at read
    rw [read]
  next read => simp [some] at read

/-- The search passes over what holds no ampersand. -/
theorem found_append {text : Text} (noMarker : '&' ∉ text) (rest : Text) :
    Declaration.found (text ++ rest) = Declaration.found rest := by
  induction text with
  | nil => rfl
  | cons c text inductionHypothesis =>
      rw [List.mem_cons, not_or] at noMarker
      have none : Declaration.read? (c :: (text ++ rest)) = none := by
        simp [Declaration.read?, read?_docComment_of_ne (Ne.symm noMarker.1)]
      rw [List.cons_append, found_of_read?_eq_none none, inductionHypothesis noMarker.2]

/-- The search passes over a marker that begins no statement. -/
theorem found_marker {found : Marker} (valid : found.Valid) {rest : Text}
    (none : Declaration.read? (found.text ++ rest) = none) :
    Declaration.found (found.text ++ rest) = Declaration.found rest := by
  obtain ⟨body, textEq, free⟩ := valid.exists_text_eq
  rw [textEq, List.cons_append] at none ⊢
  rw [found_of_read?_eq_none none, found_append free]

/-- An item that is no run begins no statement. -/
theorem found_item_of_not_isRun {item : Item} (valid : item.segment.Valid)
    (notRun : item.isRun = false) (rest : Text) :
    Declaration.found (item.text ++ rest) = Declaration.found rest := by
  rcases Item.text_cases valid with ⟨c, plain, segment, text⟩ | ⟨found, validMarker, segment, text⟩
  · rw [text]
    exact found_append (by simpa using plain.symm) rest
  · have different : MarkerKind.docComment ≠ found.kind := by
      intro equal
      simp [Item.isRun, Item.kind?, segment, ← equal] at notRun
    rw [text]
    apply found_marker validMarker
    simp [Declaration.read?, HeaderBook.Marker.other_read?_text_append validMarker different]

/-- Items without runs begin no statement. -/
theorem found_append_of_not_isRun {items : List Item} (valid : ∀ item ∈ items, item.segment.Valid)
    (notRun : ∀ item ∈ items, item.isRun = false) (rest : Text) :
    Declaration.found (items.flatMap Item.text ++ rest) = Declaration.found rest := by
  induction items with
  | nil => rfl
  | cons item items inductionHypothesis =>
      rw [List.flatMap_cons, List.append_assoc,
        found_item_of_not_isRun (valid item (by simp)) (notRun item (by simp))]
      exact inductionHypothesis (fun other member => valid other (by simp [member]))
        (fun other member => notRun other (by simp [member]))

/-- The marker of a run. -/
theorem Item.segment_of_isRun {item : Item} (isRun : item.isRun = true) :
    item.segment = .marker ⟨.docComment, item.digits⟩ := by
  obtain ⟨segment, covered⟩ := item
  cases segment with
  | plain c => simp [Item.isRun, Item.kind?] at isRun
  | marker found =>
      obtain ⟨kind, digits⟩ := found
      have docKind : kind = .docComment := by simpa [Item.isRun, Item.kind?] using isRun
      simp [Item.digits, docKind]

/-- The statements of a text are the entries of its items. -/
theorem found_items {items : List Item} (valid : ∀ item ∈ items, item.segment.Valid) :
    Declaration.found (items.flatMap Item.text) = (entries items).map Entry.found := by
  induction items with
  | nil =>
      rw [List.flatMap_nil, Declaration.found]
      rfl
  | cons item items inductionHypothesis =>
      have validTail : ∀ other ∈ items, other.segment.Valid :=
        fun other member => valid other (by simp [member])
      have tail := inductionHypothesis validTail
      rw [List.flatMap_cons, entries]
      cases isRun : item.isRun with
      | false =>
          rw [found_item_of_not_isRun (valid item (by simp)) isRun, tail]
          simp
      | true =>
          have segment := Item.segment_of_isRun isRun
          have validMarker : (⟨.docComment, item.digits⟩ : Marker).Valid := by
            have whole := valid item (by simp)
            rwa [segment] at whole
          have text : item.text = (⟨.docComment, item.digits⟩ : Marker).text := by
            rw [Item.text, segment]
            rfl
          have read := HeaderBook.Marker.kind_read?_text_append validMarker
            (items.flatMap Item.text)
          have statement := statement?_items validTail
          rw [text]
          simp only [if_pos]
          cases found : Item.statement? items with
          | none =>
              rw [found_marker validMarker, tail]
              simp [Declaration.read?, read, statement, found]
          | some cut =>
              obtain ⟨body, after⟩ := cut
              obtain ⟨split, _⟩ := Item.of_statement? found
              have begins : Declaration.read? ((⟨.docComment, item.digits⟩ : Marker).text ++
                  items.flatMap Item.text) = some (Entry.found ⟨item, body, after⟩) := by
                simp [Declaration.read?, read, statement, found, Entry.found]
              have later : Declaration.found (after.flatMap Item.text) =
                  (entries items).map Entry.found := by
                rw [← tail, split, List.flatMap_append]
                refine (found_append_of_not_isRun (fun other member => ?_) ?_ _).symm
                · exact validTail other (by simp [split, member])
                · exact Item.isRun_of_mem_statement? found
              obtain ⟨inner, textEq, _⟩ := validMarker.exists_text_eq
              rw [textEq, List.cons_append] at begins ⊢
              rw [found_of_read?_eq_some begins]
              exact congrArg (Entry.found ⟨item, body, after⟩ :: ·) later

/-- An entry that stands among `items`: its run, its statement and what follows. -/
structure Entry.StandsIn (items : List Item) (entry : Entry) : Prop where
  isRun : entry.run.isRun = true
  statement : Item.statement? (entry.body ++ entry.rest) = some (entry.body, entry.rest)
  place : ∃ before, items = before ++ entry.run :: (entry.body ++ entry.rest)

/-- An entry stands in the items behind any other as well. -/
theorem Entry.StandsIn.cons {items : List Item} {entry : Entry} (stands : entry.StandsIn items)
    (item : Item) : entry.StandsIn (item :: items) := by
  obtain ⟨before, equal⟩ := stands.place
  exact ⟨stands.isRun, stands.statement, item :: before, by rw [equal, List.cons_append]⟩

/-- Every entry stands in the items from which it is taken. -/
theorem standsIn_of_mem_entries {items : List Item} {entry : Entry}
    (member : entry ∈ entries items) : entry.StandsIn items := by
  induction items with
  | nil => simp [entries] at member
  | cons item items inductionHypothesis =>
      rw [entries] at member
      split at member
      next isRun =>
        split at member
        next body after found =>
          rcases List.mem_cons.mp member with rfl | later
          · obtain ⟨rfl, _⟩ := Item.of_statement? found
            exact ⟨isRun, found, [], rfl⟩
          · exact (inductionHypothesis later).cons item
        · exact (inductionHypothesis member).cons item
      · exact (inductionHypothesis member).cons item

/-! ### The text of an entry -/

/-- A text that ends with the marker of a block. -/
theorem endsInBlock_iff {text : Text} :
    Declaration.endsInBlock text = true ↔
      ∃ front digits, (⟨.block, digits⟩ : Marker).Valid ∧
        text = front ++ (⟨.block, digits⟩ : Marker).text := by
  have opening : MarkerKind.block.opening.reverse = ['K', 'C', 'O', 'L', 'B', '&'] := by decide
  constructor
  · intro ends
    unfold Declaration.endsInBlock at ends
    split at ends
    next rest reversed =>
      rw [opening, Bool.and_eq_true, List.isPrefixOf_iff_prefix] at ends
      obtain ⟨nonempty, front, dropped⟩ := ends
      have whole := List.takeWhile_append_dropWhile (p := isDigit) (l := rest)
      refine ⟨front.reverse, (rest.takeWhile isDigit).reverse, ⟨?_, ?_⟩, ?_⟩
      · simpa using nonempty
      · intro c member
        exact List.all_eq_true.mp List.all_takeWhile c (List.mem_reverse.mp member)
      · have textEq : text = (';' :: (rest.takeWhile isDigit ++
            (['K', 'C', 'O', 'L', 'B', '&'] ++ front))).reverse := by
          rw [dropped, whole, ← reversed, List.reverse_reverse]
        rw [textEq]
        simp [HeaderBook.Marker.text, MarkerKind.opening, MarkerKind.closing]
    · simp at ends
  · rintro ⟨front, digits, valid, rfl⟩
    have reversed : (front ++ (⟨.block, digits⟩ : Marker).text).reverse =
        ';' :: (digits.reverse ++ 'K' :: ('C' :: 'O' :: 'L' :: 'B' :: '&' :: front.reverse)) := by
      simp [HeaderBook.Marker.text, MarkerKind.opening, MarkerKind.closing]
    have all : ∀ c ∈ digits.reverse, isDigit c = true :=
      fun c member => valid.digits c (List.mem_reverse.mp member)
    unfold Declaration.endsInBlock
    rw [reversed]
    simp only [takeWhile_isDigit_append all (c := 'K') (by decide),
      dropWhile_isDigit_append all (c := 'K') (by decide), opening]
    have nonempty := valid.nonempty
    simp only at nonempty
    simp [nonempty]

/-- The text of items is that of their segments. -/
theorem flatMap_text_eq (items : List Item) :
    items.flatMap Item.text = (items.map Item.segment).flatMap Segment.text := by
  induction items with
  | nil => rfl
  | cons item items inductionHypothesis =>
      rw [List.flatMap_cons, inductionHypothesis]
      rfl

/-- A text of items ends with the marker of a block exactly when its last item is
one: an ampersand in it always begins an item. -/
theorem endsInBlock_items {init : List Item} {last : Item}
    (valid : ∀ item ∈ init ++ [last], item.segment.Valid) :
    Declaration.endsInBlock ((init ++ [last]).flatMap Item.text) =
      decide (last.kind? = some .block) := by
  have validSegments : ∀ segment ∈ (init ++ [last]).map Item.segment, segment.Valid := by
    intro segment member
    obtain ⟨item, inside, rfl⟩ := List.mem_map.mp member
    exact valid item inside
  rw [Bool.eq_iff_iff, decide_eq_true_eq, endsInBlock_iff]
  constructor
  · rintro ⟨front, digits, validMarker, equal⟩
    obtain ⟨body, textEq, _⟩ := validMarker.exists_text_eq
    rw [flatMap_text_eq, textEq] at equal
    obtain ⟨left, right, split, _, rightEq⟩ :=
      Segment.exists_split_of_ampersand validSegments equal
    have validRight : ∀ segment ∈ right, segment.Valid :=
      fun segment member => validSegments segment (by rw [split]; simp [member])
    have marker : right = [.marker ⟨.block, digits⟩] := by
      have cut := Segment.ofText_flatMap_append validRight []
      have own := Segment.ofText_marker validMarker []
      rw [List.append_nil] at cut own
      rw [rightEq, ← textEq, own] at cut
      simpa using cut.symm
    have lastEq := congrArg List.getLast? split
    rw [marker] at lastEq
    have segment : last.segment = .marker ⟨.block, digits⟩ := by simpa using lastEq
    simp [Item.kind?, segment]
  · intro block
    obtain ⟨segment, covered⟩ := last
    cases segment with
    | plain c => simp [Item.kind?] at block
    | marker found =>
        obtain ⟨kind, digits⟩ := found
        have blockKind : kind = .block := by simpa [Item.kind?] using block
        subst blockKind
        have validLast := valid ⟨.marker ⟨.block, digits⟩, covered⟩ (by simp)
        refine ⟨init.flatMap Item.text, digits, validLast, ?_⟩
        rw [List.flatMap_append]
        simp [Item.text, Segment.text]

/-- A semicolon is the trailer. -/
theorem trailer_semicolon (rest : Text) : Declaration.trailer (';' :: rest) = [';'] := by
  simp [Declaration.trailer]

/-- Any other character than a space, a tab or a semicolon leaves no trailer. -/
theorem trailer_other {c : Char} (noGap : c ≠ ' ' ∧ c ≠ '\t') (notEnd : c ≠ ';') (rest : Text) :
    Declaration.trailer (c :: rest) = [] := by
  simp [Declaration.trailer, noGap, notEnd]

/-- A space or a tab belongs to the trailer if a semicolon follows. -/
theorem trailer_gap {c : Char} (gap : c = ' ' ∨ c = '\t') (rest : Text) :
    Declaration.trailer (c :: rest) =
      if (Declaration.trailer rest).isEmpty then [] else c :: Declaration.trailer rest := by
  have taken : (c :: rest).takeWhile (fun c => decide (c = ' ') || decide (c = '\t')) =
      c :: rest.takeWhile fun c => decide (c = ' ') || decide (c = '\t') :=
    List.takeWhile_cons_of_pos (by simpa using gap)
  unfold Declaration.trailer
  rw [taken]
  simp only [List.length_cons, List.drop_succ_cons]
  split
  · simp
  · simp

/-- Spaces and tabs with a semicolon after them are items of their own. -/
theorem trailer_items {items : List Item} (valid : ∀ item ∈ items, item.segment.Valid) :
    Declaration.trailer (items.flatMap Item.text) = (Item.trailer items).flatMap Item.text := by
  induction items with
  | nil => rfl
  | cons item items inductionHypothesis =>
      have tail := inductionHypothesis fun other member => valid other (by simp [member])
      have sameEmpty : (Item.trailer items).isEmpty =
          (Declaration.trailer (items.flatMap Item.text)).isEmpty := by
        rw [tail]
        cases trailer : Item.trailer items with
        | nil => rfl
        | cons first others =>
            have member : first ∈ items := Item.mem_of_mem_trailer (by rw [trailer]; simp)
            obtain ⟨c, body, textEq, _⟩ := (valid first (by simp [member])).exists_text_eq
            simp [Item.text, textEq]
      rw [List.flatMap_cons, Item.trailer]
      rcases Item.text_cases (valid item (by simp)) with
        ⟨c, plain, segment, text⟩ | ⟨found, validMarker, segment, text⟩
      · rw [text, List.singleton_append]
        by_cases semicolon : c = ';'
        · rw [semicolon, trailer_semicolon]
          simp [segment, semicolon, text]
        · by_cases gap : c = ' ' ∨ c = '\t'
          · have isGap : item.isGap = true := by simpa [Item.isGap, segment] using gap
            rw [trailer_gap gap, ← sameEmpty, tail]
            cases Item.trailer items <;> simp [segment, semicolon, isGap, text]
          · have noGap : item.isGap = false := by simpa [Item.isGap, segment] using gap
            rw [trailer_other (not_or.mp gap) semicolon]
            simp [segment, semicolon, noGap]
      · obtain ⟨body, textEq, _⟩ := validMarker.exists_text_eq
        rw [text, textEq, List.cons_append, trailer_other (by decide) (by decide)]
        simp [segment, Item.isGap]

namespace Entry

/-- The text of an entry is that of its items. -/
theorem StandsIn.text_found {items : List Item} {entry : Entry} (stands : entry.StandsIn items)
    (valid : ∀ item ∈ items, item.segment.Valid) :
    entry.found.text = entry.items.flatMap Item.text := by
  obtain ⟨before, place⟩ := stands.place
  have validRun : ∀ item ∈ entry.run :: (entry.body ++ entry.rest), item.segment.Valid := by
    intro item member
    exact valid item (by rw [place]; exact List.mem_append_right before member)
  have validRest : ∀ item ∈ entry.rest, item.segment.Valid :=
    fun item member => validRun item (by simp [member])
  obtain ⟨_, init, last, bodyEq, _, _⟩ := Item.of_statement? stands.statement
  have span : entry.found.span = (entry.run :: entry.body).flatMap Item.text := by
    have segment := Item.segment_of_isRun stands.isRun
    rw [List.flatMap_cons, Item.text, segment]
    rfl
  have ends : Declaration.endsInBlock entry.found.span = entry.endsInBlock := by
    have cut : entry.run :: entry.body = (entry.run :: init) ++ [last] := by rw [bodyEq]; rfl
    rw [span, cut, endsInBlock_items]
    · simp [Entry.endsInBlock, bodyEq]
    · intro item member
      rw [← cut] at member
      rcases List.mem_cons.mp member with isRun | inBody
      · exact validRun item (by simp [isRun])
      · exact validRun item (by simp [inBody])
  unfold Declaration.Found.text Entry.items
  rw [ends, span]
  cases entry.endsInBlock with
  | false => simp
  | true =>
      have rest : Declaration.trailer entry.found.rest =
          (Item.trailer entry.rest).flatMap Item.text := trailer_items validRest
      simp [rest]

end Entry

end HeaderBook.Source
