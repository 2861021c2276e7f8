import HeaderBook.Proofs.JoinedSource

/-!
# Folding one source after another

When a source comes after another one, its fragments are numbered on: `Offsets` says
by how much the indices of each kind grow. Folding, the search for documented
statements and the kinds of the statements do not depend on the indices, so each of
them commutes with `Offsets.item`.

A folding pass over both sources ends as the pass over the first, followed by that
over the second with its indices moved, if no brace of the first is left open.
-/

namespace HeaderBook.Source

open Text (digitsValue isBlank isDigit)

/-- How many literals, runs and blocks come before those of a source. -/
structure Offsets where
  literals : Nat
  runs : Nat
  blocks : Nat

namespace Offsets

variable (offsets : Offsets)

/-- The index of a fragment when others are numbered first. The ampersand has number
zero in every text. -/
def index : MarkerKind → Nat → Nat
  | .generic, 0 => 0
  | .generic, index + 1 => offsets.literals + (index + 1)
  | .docComment, index => offsets.runs + index
  | .block, index => offsets.blocks + index

def segment : Segment → Segment
  | .plain c => .plain c
  | .marker found =>
    .marker (.ofIndex found.kind (offsets.index found.kind (digitsValue found.digits)))

/-- An item with its index moved; it covers the same tokens. -/
def item (item : Item) : Item :=
  ⟨offsets.segment item.segment, item.covered⟩

/-- A renumbered item covers the same tokens. -/
@[simp] theorem covered_item (item : Item) : (offsets.item item).covered = item.covered :=
  rfl

/-- Renumbered items cover the same tokens. -/
@[simp] theorem flatMap_covered_map (items : List Item) :
    (items.map offsets.item).flatMap Item.covered = items.flatMap Item.covered := by
  rw [List.flatMap_map]
  rfl

/-- The marker of an index becomes that of the shifted index. -/
theorem item_ofIndex (kind : MarkerKind) (index : Nat) (covered : List Token) :
    offsets.item ⟨.marker (.ofIndex kind index), covered⟩ =
      ⟨.marker (.ofIndex kind (offsets.index kind index)), covered⟩ := by
  simp [item, segment, Marker.ofIndex]

/-- Plain characters are not renumbered. -/
@[simp] theorem segment_item_eq_plain (item : Item) (c : Char) :
    (offsets.item item).segment = .plain c ↔ item.segment = .plain c := by
  obtain ⟨segment, covered⟩ := item
  cases segment <;> simp [Offsets.item, Offsets.segment]

/-- Renumbering changes no kind of marker. -/
@[simp] theorem kind?_item (item : Item) : (offsets.item item).kind? = item.kind? := by
  obtain ⟨segment, covered⟩ := item
  cases segment <;> rfl

/-- What ends a statement does so under any numbers. -/
@[simp] theorem isEnd_item (item : Item) : (offsets.item item).isEnd = item.isEnd := by
  simp [Item.isEnd]

/-- A run of comments is one under any number. -/
@[simp] theorem isRun_item (item : Item) : (offsets.item item).isRun = item.isRun := by
  simp [Item.isRun]

/-- A space or a tab is one under any numbers. -/
@[simp] theorem isGap_item (item : Item) : (offsets.item item).isGap = item.isGap := by
  simp [Item.isGap]

/-- A run's number is shifted by the runs before. -/
theorem digitsValue_item {item : Item} (isRun : item.isRun = true) :
    digitsValue (offsets.item item).digits = offsets.runs + digitsValue item.digits := by
  obtain ⟨digits, equal⟩ : ∃ digits, item.segment = .marker ⟨.docComment, digits⟩ :=
    ⟨_, Item.segment_of_isRun isRun⟩
  simp [Item.digits, Offsets.item, equal, segment, index, Marker.ofIndex]

/-- Numbering later moves the indices of the items. -/
theorem ofTokens_add {tokens : List Token} (unmarked : ∀ digits, .marker digits ∉ tokens)
    {generic : Nat} (positive : 0 < generic) (doc : Nat) :
    Item.ofTokens (offsets.literals + generic) (offsets.runs + doc) tokens =
      (Item.ofTokens generic doc tokens).map offsets.item := by
  induction tokens generalizing generic doc with
  | nil => rfl
  | cons token tokens inductionHypothesis =>
      have later := @inductionHypothesis fun digits member =>
        unmarked digits (List.mem_cons_of_mem _ member)
      cases token with
      | char c =>
          have kept : offsets.segment (Item.charSegment c) = Item.charSegment c := by
            unfold Item.charSegment
            split
            · simp [segment, Marker.ofIndex, FragmentTable.ampersandIndex, index]
            · rfl
          rw [Item.ofTokens, Item.ofTokens, later positive, List.map_cons, item, kept]
      | marker digits => exact absurd List.mem_cons_self (unmarked digits)
      | literal text =>
          have number : offsets.index .generic generic = offsets.literals + generic := by
            cases generic with
            | zero => exact absurd positive (Nat.lt_irrefl 0)
            | succ position => rfl
          rw [Item.ofTokens, Item.ofTokens, Nat.add_assoc, later (Nat.succ_pos generic),
            List.map_cons, item_ofIndex, number]
      | comment lines =>
          rw [Item.ofTokens, Item.ofTokens, Nat.add_assoc, later positive, List.map_cons, item_ofIndex]
          rfl

end Offsets

/-! ### Folding -/

namespace ItemFolding

/-- A buffer and those outside it, with `front` put before the outermost one. -/
def under (front current : List Item) : List (List Item) → List Item × List (List Item)
  | [] => (front ++ current, [])
  | around :: outer => (current, (under front around outer).1 :: (under front around outer).2)

/-- What is read into the current buffer stands behind what was there. -/
theorem under_append (front current added : List Item) (outer : List (List Item)) :
    under front (current ++ added) outer =
      ((under front current outer).1 ++ added, (under front current outer).2) := by
  cases outer <;> simp [under]

/-- All that is open stands behind what is in front of it. -/
theorem flatten_under (front current : List Item) (outer : List (List Item)) :
    ((under front current outer).1 :: (under front current outer).2).reverse.flatten =
      front ++ (current :: outer).reverse.flatten := by
  induction outer generalizing current with
  | nil => simp [under]
  | cons around outer inductionHypothesis =>
      rw [under, List.reverse_cons, List.flatten_append, inductionHypothesis around]
      simp

/-- The state of a pass that has folded `blocks` and left `front` before it began. -/
def after (front : List Item) (blocks : List (List Item)) (offsets : Offsets)
    (state : ItemFolding) : ItemFolding :=
  let buffers := under front (state.current.map offsets.item)
    (state.outer.map (List.map offsets.item))
  ⟨buffers.1, buffers.2, blocks ++ state.blocks.map (List.map offsets.item)⟩

/-- What is left at the end stands behind what was in front. -/
theorem finish_after (front : List Item) (blocks : List (List Item)) (offsets : Offsets)
    (state : ItemFolding) :
    (state.after front blocks offsets).finish = front ++ state.finish.map offsets.item := by
  have buffers := flatten_under front (state.current.map offsets.item)
    (state.outer.map (List.map offsets.item))
  rw [← List.map_cons, ← List.map_reverse, ← List.map_flatten] at buffers
  exact buffers

/-- A pass takes one item more in the same way after other items. -/
theorem Step.after {front : List Item} {blocks : List (List Item)} {offsets : Offsets}
    (counted : offsets.blocks = blocks.length) {state next : ItemFolding} {item : Item}
    (transition : Step state item next) :
    Step (state.after front blocks offsets) (offsets.item item) (next.after front blocks offsets) := by
  cases transition with
  | opening brace => exact .opening ((offsets.segment_item_eq_plain item _).mpr brace)
  | @closing current around outer closed _ brace =>
      have marker : offsets.item (.block closed.length (current ++ [item])) =
          .block (blocks ++ closed.map (List.map offsets.item)).length
            (current.map offsets.item ++ [offsets.item item]) := by
        rw [Item.block, Offsets.item_ofIndex, Offsets.index, counted]
        simp [Item.block]
      simp only [ItemFolding.after, List.map_append, List.map_cons, List.map_nil, marker, under_append]
      rw [← List.append_assoc]
      exact .closing ((offsets.segment_item_eq_plain item _).mpr brace)
  | keeping noOpening noClosing =>
      simp only [ItemFolding.after, List.map_append, List.map_cons, List.map_nil, under_append]
      refine .keeping (fun brace => noOpening ((offsets.segment_item_eq_plain item _).mp brace)) ?_
      intro brace
      rw [noClosing ((offsets.segment_item_eq_plain item _).mp brace)]
      rfl

/-- A pass over moved items, after a pass that left no brace open. -/
theorem run_append {left right : List Item} {offsets : Offsets}
    (counted : offsets.blocks = (run left).blocks.length) (closed : (run left).outer = []) :
    run (left ++ right.map offsets.item) =
      (run right).after (run left).finish (run left).blocks offsets := by
  have start : run left = ItemFolding.after (run left).finish (run left).blocks offsets {} := by
    generalize run left = state at closed
    obtain ⟨current, outer, blocks⟩ := state
    obtain rfl : outer = [] := closed
    simp [ItemFolding.after, under, finish]
  rw [run, List.foldl_append, ← run, List.foldl_map]
  nth_rewrite 1 [start]
  exact List.foldl_hom _ fun state item => ((step_spec state item).after counted).step_eq

/-- A buffer with an opening brace in it. -/
def HoldsOpening (buffer : List Item) : Prop :=
  ∃ item ∈ buffer, item.segment = .plain '\x7b'

/-- The inner buffers still hold an opening brace each when more is read. -/
theorem holdsOpening_dropLast_append {buffer : List Item} {outer : List (List Item)}
    (holds : ∀ inner ∈ (buffer :: outer).dropLast, HoldsOpening inner) (added : List Item) :
    ∀ inner ∈ ((buffer ++ added) :: outer).dropLast, HoldsOpening inner := by
  intro inner member
  cases outer with
  | nil => simp at member
  | cons around outer =>
      rw [List.dropLast_cons_cons] at holds member
      rcases List.mem_cons.mp member with rfl | later
      · obtain ⟨item, inside, brace⟩ := holds buffer List.mem_cons_self
        exact ⟨item, List.mem_append_left _ inside, brace⟩
      · exact holds inner (List.mem_cons_of_mem _ later)

/-- Every buffer but the outermost holds the brace that opened it. -/
theorem holdsOpening_of_run (items : List Item) :
    ∀ buffer ∈ ((run items).current :: (run items).outer).dropLast, HoldsOpening buffer := by
  induction items using run_induction with
  | initial => simp
  | @kept read state item next opened transition =>
      cases transition with
      | opening brace =>
          intro buffer member
          rw [List.dropLast_cons_cons] at member
          rcases List.mem_cons.mp member with rfl | later
          · exact ⟨item, List.mem_singleton_self item, brace⟩
          · exact opened buffer later
      | closing =>
          -- The closed buffer goes, and the one around it grows by the marker.
          refine holdsOpening_dropLast_append (fun buffer member => opened buffer ?_) _
          rw [List.dropLast_cons_cons]
          exact List.mem_cons_of_mem _ member
      | keeping => exact holdsOpening_dropLast_append opened _

/-- If no opening brace is left, none is open. -/
theorem outer_eq_nil {items : List Item}
    (folded : ∀ item ∈ (run items).finish, item.segment ≠ .plain '\x7b') :
    (run items).outer = [] := by
  have opened := holdsOpening_of_run items
  cases outer : (run items).outer with
  | nil => rfl
  | cons around rest =>
      rw [outer, List.dropLast_cons_cons] at opened
      obtain ⟨item, inside, brace⟩ := opened _ List.mem_cons_self
      refine absurd brace (folded item ?_)
      rw [finish, List.mem_flatten]
      exact ⟨_, List.mem_reverse.mpr List.mem_cons_self, inside⟩

end ItemFolding

/-! ### Documented statements -/

/-- Renumbering does not change where a statement ends. -/
theorem Item.statement?_map (offsets : Offsets) (items : List Item) :
    Item.statement? (items.map offsets.item) =
      (Item.statement? items).map fun (body, after) =>
        (body.map offsets.item, after.map offsets.item) := by
  induction items with
  | nil => rfl
  | cons item items inductionHypothesis =>
      rw [List.map_cons, Item.statement?, Item.statement?, inductionHypothesis, Offsets.isEnd_item,
        Offsets.isRun_item]
      split
      · rfl
      · split
        · rfl
        · simp [Function.comp_def]

/-- Renumbering does not change what trails a statement. -/
theorem Item.trailer_map (offsets : Offsets) (items : List Item) :
    Item.trailer (items.map offsets.item) = (Item.trailer items).map offsets.item := by
  induction items with
  | nil => rfl
  | cons item items inductionHypothesis =>
      rw [List.map_cons, Item.trailer, Item.trailer, inductionHypothesis]
      simp only [Offsets.segment_item_eq_plain, Offsets.isGap_item, List.isEmpty_map]
      split
      · rfl
      · split
        · rfl
        · rfl

/-- An entry with its indices moved. -/
def Offsets.entry (offsets : Offsets) (entry : Entry) : Entry :=
  ⟨offsets.item entry.run, entry.body.map offsets.item, entry.rest.map offsets.item⟩

/-- Renumbered items have the renumbered entries. -/
theorem entries_map (offsets : Offsets) (items : List Item) :
    entries (items.map offsets.item) = (entries items).map offsets.entry := by
  induction items with
  | nil => rfl
  | cons item items inductionHypothesis =>
      rw [List.map_cons, entries, entries, inductionHypothesis, Item.statement?_map, Offsets.isRun_item]
      split
      · cases Item.statement? items with
        | none => rfl
        | some found => rfl
      · rfl

/-- The items of a renumbered entry are the renumbered items. -/
theorem Entry.items_map (offsets : Offsets) (entry : Entry) :
    (offsets.entry entry).items = entry.items.map offsets.item := by
  have ends : (offsets.entry entry).endsInBlock = entry.endsInBlock := by
    simp [Entry.endsInBlock, Offsets.entry, Option.any_map]
  rw [Entry.items, Entry.items, ends]
  split
  · simp [Offsets.entry, Item.trailer_map]
  · simp [Offsets.entry]

/-! ### Statements of complete items -/

/-- A statement that has ended ends there whatever follows. -/
theorem Item.statement?_append_of_eq_some {items body after : List Item}
    (found : Item.statement? items = some (body, after)) (more : List Item) :
    Item.statement? (items ++ more) = some (body, after ++ more) := by
  obtain ⟨rfl, init, last, rfl, ends, others⟩ := Item.of_statement? found
  simpa using @Item.statement?_eq_some init (after ++ more) last ends others

/-- Where a run comes before the first end, more items do not complete the statement. -/
theorem Item.statement?_append_of_eq_none {items : List Item} (none : Item.statement? items = none)
    (ends : ∃ item ∈ items, item.isEnd = true) (more : List Item) :
    Item.statement? (items ++ more) = .none := by
  induction items with
  | nil => simp at ends
  | cons item items inductionHypothesis =>
      rw [Item.statement?] at none
      rw [List.cons_append, Item.statement?]
      split at none
      · simp at none
      next goesOn =>
        rw [if_neg goesOn]
        split at none
        next isRun => rw [if_pos isRun]
        next notRun =>
          obtain ⟨other, member, isEnd⟩ := ends
          rcases List.mem_cons.mp member with rfl | later
          · exact absurd isEnd goesOn
          · rw [if_neg notRun, inductionHypothesis (Option.map_eq_none_iff.mp none) ⟨other, later, isEnd⟩]
            rfl

/-- Items to which nothing that follows can belong: every run has the end of a statement
after it, and the last item is a line break. -/
structure Complete (items : List Item) : Prop where
  ended : ∀ before run rest, items = before ++ run :: rest → run.isRun = true →
    ∃ item ∈ rest, item.isEnd = true
  endLine : ∀ item ∈ items.getLast?, item.segment = .plain '\n'

namespace Complete

/-- The end of a complete list of items is complete. -/
theorem tail {item : Item} {items : List Item} (complete : Complete (item :: items)) :
    Complete items where
  ended before run rest equal := complete.ended (item :: before) run rest (by rw [equal, List.cons_append])
  endLine last member := by
    obtain ⟨init, rfl⟩ := List.getLast?_eq_some_iff.mp member
    exact complete.endLine last (by rw [← List.cons_append, List.getLast?_concat]; rfl)

/-- What stands behind others in a complete list of items is complete. -/
theorem of_append {before items : List Item} (complete : Complete (before ++ items)) :
    Complete items := by
  induction before with
  | nil => exact complete
  | cons item before inductionHypothesis => exact inductionHypothesis complete.tail

/-- An item that is no line break has items after it. -/
theorem ne_nil {item : Item} {items : List Item} (complete : Complete (item :: items))
    (inner : item.segment ≠ .plain '\n') : items ≠ [] := by
  rintro rfl
  exact inner (complete.endLine item rfl)

/-- A trailer ends before the last line break. -/
theorem trailer_append {items : List Item} (complete : Complete items) (nonempty : items ≠ [])
    (more : List Item) : Item.trailer (items ++ more) = Item.trailer items := by
  induction items with
  | nil => exact absurd rfl nonempty
  | cons item items inductionHypothesis =>
      rw [List.cons_append, Item.trailer, Item.trailer]
      split
      · rfl
      · by_cases gap : item.isGap = true
        · have inner : item.segment ≠ .plain '\n' := by
            intro newline
            simp [Item.isGap, newline] at gap
          rw [inductionHypothesis complete.tail (complete.ne_nil inner)]
        · simp [gap]

end Complete

/-- An entry before further items. -/
def Entry.before (more : List Item) (entry : Entry) : Entry :=
  ⟨entry.run, entry.body, entry.rest ++ more⟩

/-- The statements of complete items stand before those of the items that follow. -/
theorem entries_append {items : List Item} (complete : Complete items) (more : List Item) :
    entries (items ++ more) = (entries items).map (Entry.before more) ++ entries more := by
  induction items with
  | nil => rfl
  | cons item items inductionHypothesis =>
      rw [List.cons_append, entries, entries, inductionHypothesis complete.tail]
      split
      next isRun =>
        cases found : Item.statement? items with
        | some statement =>
            rw [Item.statement?_append_of_eq_some found]
            rfl
        | none =>
            rw [Item.statement?_append_of_eq_none found (complete.ended [] item items rfl isRun)]
      · rfl

/-- The items of a statement are found before the items that follow complete ones. -/
theorem Entry.items_before {items : List Item} (complete : Complete items) {entry : Entry}
    (stands : entry.StandsIn items) (more : List Item) : (entry.before more).items = entry.items := by
  obtain ⟨before, place⟩ := stands.place
  obtain ⟨_, init, last, body, ends, _⟩ := Item.of_statement? stands.statement
  have around : items = (before ++ entry.run :: init) ++ last :: entry.rest := by
    rw [place, body]
    simp
  have closed : Complete (last :: entry.rest) := Complete.of_append (around ▸ complete)
  have inner : last.segment ≠ .plain '\n' := by
    intro newline
    simp [Item.isEnd, Item.kind?, newline] at ends
  have trailer := closed.tail.trailer_append (closed.ne_nil inner) more
  unfold Entry.items
  rw [show (entry.before more).rest = entry.rest ++ more from rfl, trailer]
  rfl

/-! ### The kind of a statement -/

/-- Texts that differ only in the digits of their markers. -/
inductive Renumbered : Text → Text → Prop where
  | nil : Renumbered [] []
  | plain {c : Char} {left right : Text} (outside : c ≠ '&') (later : Renumbered left right) :
      Renumbered (c :: left) (c :: right)
  | marker {first second : Marker} {left right : Text} (validFirst : first.Valid)
      (validSecond : second.Valid) (kind : first.kind = second.kind)
      (later : Renumbered left right) : Renumbered (first.text ++ left) (second.text ++ right)

namespace Renumbered

/-- Items and renumbered items spell texts that differ in numbers only. -/
theorem of_items (offsets : Offsets) {items : List Item}
    (valid : ∀ item ∈ items, item.segment.Valid) :
    Renumbered (items.flatMap Item.text) ((items.map offsets.item).flatMap Item.text) := by
  induction items with
  | nil => exact .nil
  | cons item items inductionHypothesis =>
      have later := inductionHypothesis fun other member => valid other (List.mem_cons_of_mem _ member)
      rw [List.map_cons, List.flatMap_cons, List.flatMap_cons]
      obtain ⟨segment, covered⟩ := item
      cases segment with
      | plain c => exact .plain (valid _ List.mem_cons_self) later
      | marker found => exact .marker (valid _ List.mem_cons_self) (Marker.valid_ofIndex _ _) rfl later

variable {left right : Text}

/-- A word stands at the beginning of both texts or of neither. -/
theorem after? (same : Renumbered left right) (word : Text) (free : '&' ∉ word) :
    (Text.after? word left = none ∧ Text.after? word right = none) ∨
      ∃ leftRest rightRest, Text.after? word left = some leftRest ∧
        Text.after? word right = some rightRest ∧ Renumbered leftRest rightRest := by
  induction word generalizing left right with
  | nil => exact .inr ⟨left, right, rfl, rfl, same⟩
  | cons c word inductionHypothesis =>
      rw [List.mem_cons, not_or] at free
      cases same with
      | nil => exact .inl ⟨rfl, rfl⟩
      | @plain d left right outside later =>
          by_cases same : c = d
          · simpa [Text.after?, same] using inductionHypothesis later free.2
          · exact .inl ⟨by simp [Text.after?, same], by simp [Text.after?, same]⟩
      | marker =>
          have other := Ne.symm free.1
          rw [Marker.text_eq_inside, Marker.text_eq_inside]
          exact .inl ⟨by simp [Text.after?, other], by simp [Text.after?, other]⟩

/-- Blanks in front may be dropped from both texts. -/
theorem dropBlanks (same : Renumbered left right) :
    Renumbered (left.dropWhile isBlank) (right.dropWhile isBlank) := by
  induction same with
  | nil => exact .nil
  | @plain c left right outside later inductionHypothesis =>
      by_cases blank : isBlank c = true
      · simpa [blank] using inductionHypothesis
      · simpa [blank] using Renumbered.plain outside later
  | @marker first second left right validFirst validSecond kind later _ =>
      have blank : isBlank '&' = false := by decide
      have whole := Renumbered.marker validFirst validSecond kind later
      rw [Marker.text_eq_inside, Marker.text_eq_inside] at whole ⊢
      simpa [blank] using whole

/-- The texts begin with the same character. -/
theorem head?_eq (same : Renumbered left right) : left.head? = right.head? := by
  cases same with
  | nil => rfl
  | plain => rfl
  | marker => simp [Marker.text_eq_inside]

/-- A word that has no ampersand begins both texts or neither. -/
theorem beginsWithWord (same : Renumbered left right) (word : Text) (free : '&' ∉ word) :
    Declaration.beginsWithWord left word = Declaration.beginsWithWord right word := by
  unfold Declaration.beginsWithWord
  rcases same.after? word free with ⟨first, second⟩ | ⟨leftRest, rightRest, first, second, rest⟩
  · rw [first, second]
  · have heads := rest.head?_eq
    rw [first, second]
    cases leftRest <;> cases rightRest <;> simp_all

/-- Both texts begin with a class word or neither does. -/
theorem beginsWithClassWord (same : Renumbered left right) :
    Declaration.beginsWithClassWord left = Declaration.beginsWithClassWord right := by
  have classWord := same.beginsWithWord "class".toList (by decide)
  have structWord := same.beginsWithWord "struct".toList (by decide)
  simp only [Declaration.beginsWithClassWord, List.any_cons, List.any_nil, classWord,
    structWord]

/-- Text that has neither a semicolon nor a closing bracket is passed over. -/
theorem closesBeforeClassWord_append {text : Text} (noEnd : ';' ∉ text) (noClosing : '>' ∉ text)
    (rest : Text) :
    Declaration.closesBeforeClassWord (text ++ rest) = Declaration.closesBeforeClassWord rest := by
  induction text with
  | nil => rfl
  | cons c text inductionHypothesis =>
      rw [List.mem_cons, not_or] at noEnd noClosing
      rw [List.cons_append, Declaration.closesBeforeClassWord, if_neg (Ne.symm noEnd.1),
        inductionHypothesis noEnd.2 noClosing.2]
      simp [Ne.symm noClosing.1]

/-- The search passes over a marker, unless it is that of a block and ends the statement. -/
theorem closesBeforeClassWord_marker {found : Marker} (valid : found.Valid) (rest : Text) :
    Declaration.closesBeforeClassWord (found.text ++ rest) =
      (found.kind.closing ≠ ';' && Declaration.closesBeforeClassWord rest) := by
  have noEnd : ';' ∉ '&' :: inside found := by
    simpa using not_mem_inside valid (c := ';') (by decide) (by decide)
  have noClosing : '>' ∉ '&' :: inside found := by
    simpa using not_mem_inside valid (c := '>') (by decide) (by decide)
  have shape : found.text ++ rest = ('&' :: inside found) ++ found.kind.closing :: rest := by
    simp [Marker.text_eq_inside]
  rw [shape, closesBeforeClassWord_append noEnd noClosing, Declaration.closesBeforeClassWord]
  cases found.kind <;> simp [MarkerKind.closing]

/-- The brackets of a template close before a class word in both texts or in neither. -/
theorem closesBeforeClassWord (same : Renumbered left right) :
    Declaration.closesBeforeClassWord left = Declaration.closesBeforeClassWord right := by
  induction same with
  | nil => rfl
  | plain outside later inductionHypothesis =>
      rw [Declaration.closesBeforeClassWord, Declaration.closesBeforeClassWord, inductionHypothesis,
        later.dropBlanks.beginsWithClassWord]
  | marker validFirst validSecond kind later inductionHypothesis =>
      rw [closesBeforeClassWord_marker validFirst, closesBeforeClassWord_marker validSecond, kind,
        inductionHypothesis]

/-- Both texts head a class or neither does. -/
theorem isClassHead (same : Renumbered left right) :
    Declaration.isClassHead left = Declaration.isClassHead right := by
  unfold Declaration.isClassHead
  rw [same.beginsWithClassWord]
  congr 1
  rcases same.after? "template".toList (by decide) with
    ⟨first, second⟩ | ⟨leftRest, rightRest, first, second, rest⟩
  · rw [first, second]
  · rw [first, second]
    have blanks := rest.dropBlanks
    simp only
    generalize leftRest.dropWhile isBlank = leftHead at blanks
    generalize rightRest.dropWhile isBlank = rightHead at blanks
    cases blanks with
    | nil => rfl
    | @plain c left right outside later =>
        by_cases bracket : c = '<'
        · subst bracket
          exact later.closesBeforeClassWord
        · simp [bracket]
    | marker => simp [Marker.text_eq_inside]

end Renumbered

/-- The kind of an entry does not depend on the indices. -/
theorem Entry.kind_map (offsets : Offsets) {entry : Entry}
    (valid : ∀ item ∈ entry.body, item.segment.Valid) :
    (offsets.entry entry).found.kind = entry.found.kind := by
  have same := (Renumbered.of_items offsets valid).dropBlanks.isClassHead
  unfold Declaration.Found.kind
  exact congrArg (fun head : Bool => if head then _ else _) same.symm

end HeaderBook.Source
