import Mathlib.Data.List.Perm.Basic
import HeaderBook.Proofs.WorkingText

/-!
# Folding, item by item

`ItemFolding` is the folding pass on items in place of characters. `Step` says
once what reading one item can do; the facts about whole passes follow by
`run_induction`:

- the buffers together cover exactly the tokens read so far,
- every item of a buffer or a block was read, or is the marker of a block that
  was folded earlier, and
- no item is lost or duplicated, and each block has one marker.

`foldBlocks_items` carries these facts to the pass on texts.
-/

namespace HeaderBook.Source

/-- The item that takes the place of a folded block. -/
def Item.block (index : Nat) (body : List Item) : Item :=
  ⟨.marker (.ofIndex .block index), body.flatMap Item.covered⟩

/-- The state of a folding pass on items. -/
structure ItemFolding where
  /-- The items since the innermost opening brace, that brace included. -/
  current : List Item := []
  /-- The items outside it, the innermost buffer first. -/
  outer : List (List Item) := []
  /-- The folded blocks in closing order. -/
  blocks : List (List Item) := []

namespace ItemFolding

/-- Takes one more item. -/
def step (state : ItemFolding) (item : Item) : ItemFolding :=
  if item.segment = .plain '\x7b' then
    { state with current := [item], outer := state.current :: state.outer }
  else if item.segment = .plain '\x7d' then
    match state.outer with
    | [] => { state with current := state.current ++ [item] }
    | around :: outer =>
      { current := around ++ [.block state.blocks.length (state.current ++ [item])]
        outer
        blocks := state.blocks ++ [state.current ++ [item]] }
  else
    { state with current := state.current ++ [item] }

/-- A whole pass. -/
def run (items : List Item) : ItemFolding :=
  items.foldl step {}

/-- The items at the end of a pass, with what is still open written back. -/
def finish (state : ItemFolding) : List Item :=
  (state.current :: state.outer).reverse.flatten

/-- Every possible step of the pass. -/
inductive Step : ItemFolding → Item → ItemFolding → Prop where
  | opening {state : ItemFolding} {item : Item} (brace : item.segment = .plain '\x7b') :
      Step state item ⟨[item], state.current :: state.outer, state.blocks⟩
  | closing {current around : List Item} {outer blocks : List (List Item)} {item : Item}
      (brace : item.segment = .plain '\x7d') :
      Step ⟨current, around :: outer, blocks⟩ item
        ⟨around ++ [.block blocks.length (current ++ [item])], outer,
          blocks ++ [current ++ [item]]⟩
  | keeping {state : ItemFolding} {item : Item} (noOpening : item.segment ≠ .plain '\x7b')
      (noClosing : item.segment = .plain '\x7d' → state.outer = []) :
      Step state item ⟨state.current ++ [item], state.outer, state.blocks⟩

/-- Every step is one of the listed transitions. -/
theorem step_spec (state : ItemFolding) (item : Item) : Step state item (state.step item) := by
  unfold step
  split
  next brace => exact .opening brace
  next noOpening =>
    split
    next brace =>
      obtain ⟨current, outer, blocks⟩ := state
      cases outer with
      | nil => exact .keeping noOpening fun _ => rfl
      | cons around outer => exact .closing brace
    next noClosing => exact .keeping noOpening fun brace => absurd brace noClosing

/-- A step is determined by its state and its item. -/
theorem Step.step_eq {state next : ItemFolding} {item : Item} (transition : Step state item next) :
    state.step item = next := by
  cases transition with
  | opening brace => simp [step, brace]
  | closing brace => simp [step, brace]
  | keeping noOpening noClosing =>
      rw [step, if_neg noOpening]
      split
      next brace =>
        obtain ⟨current, outer, blocks⟩ := state
        obtain rfl : outer = [] := noClosing brace
        rfl
      · rfl

/-- What holds before a pass and is kept by every step holds after the pass. -/
theorem run_induction {motive : List Item → ItemFolding → Prop} (initial : motive [] {})
    (kept : ∀ {read state item next}, motive read state → Step state item next →
      motive (read ++ [item]) next) (items : List Item) : motive items (run items) := by
  have along : ∀ (items read : List Item) (state : ItemFolding), motive read state →
      motive (read ++ items) (items.foldl step state) := by
    intro items
    induction items with
    | nil =>
        intro read state holds
        simpa using holds
    | cons item items inductionHypothesis =>
        intro read state holds
        have next := inductionHypothesis _ _ (kept holds (step_spec state item))
        rwa [List.append_assoc, List.singleton_append] at next
  exact along items [] {} initial

/-- The buffers together cover exactly what was read. -/
theorem flatMap_covered_finish (items : List Item) :
    (run items).finish.flatMap Item.covered = items.flatMap Item.covered := by
  induction items using run_induction with
  | initial => rfl
  | @kept read state item next conserved transition =>
      rw [List.flatMap_append, ← conserved]
      cases transition with
      | opening => simp [finish]
      | closing => simp [finish, Item.block]
      | keeping => simp [finish]

/-- A pass folds at most one block for each item. -/
theorem length_blocks_le (items : List Item) : (run items).blocks.length ≤ items.length := by
  induction items using run_induction with
  | initial => exact Nat.le_refl 0
  | @kept read state item next bound transition =>
      rw [List.length_append, List.length_singleton]
      cases transition with
      | opening =>
          exact Nat.le_succ_of_le bound
      | closing =>
          rw [List.length_append, List.length_singleton]
          exact Nat.succ_le_succ bound
      | keeping =>
          exact Nat.le_succ_of_le bound

/-- An item that was read, or the marker of one of the first `limit` blocks. -/
def Origin (read : List Item) (blocks : List (List Item)) (limit : Nat) (item : Item) : Prop :=
  item ∈ read ∨ ∃ index body, index < limit ∧ blocks[index]? = some body ∧ item = .block index body

/-- An item keeps its origin when more items are read. -/
theorem Origin.read_more {read : List Item} {blocks : List (List Item)} {limit : Nat} {item : Item}
    (origin : Origin read blocks limit item) (more : List Item) :
    Origin (read ++ more) blocks limit item :=
  origin.imp_left (List.mem_append_left more)

/-- An item keeps its origin when more blocks are folded. -/
theorem Origin.fold_more {read : List Item} {blocks : List (List Item)} {limit wider : Nat}
    {item : Item} (origin : Origin read blocks limit item) (added : List (List Item))
    (wide : limit ≤ wider) : Origin read (blocks ++ added) wider item := by
  rcases origin with member | ⟨index, body, below, found, equal⟩
  · exact .inl member
  · refine .inr ⟨index, body, Nat.lt_of_lt_of_le below wide, ?_, equal⟩
    have inside : index < blocks.length := (List.getElem?_eq_some_iff.mp found).1
    rw [List.getElem?_append_left inside]
    exact found

/-- Every item has an origin, and a block holds only blocks folded before it. -/
structure Sound (read : List Item) (state : ItemFolding) : Prop where
  buffers : ∀ buffer ∈ state.current :: state.outer, ∀ item ∈ buffer,
    Origin read state.blocks state.blocks.length item
  blocks : ∀ index body, state.blocks[index]? = some body → ∀ item ∈ body,
    Origin read state.blocks index item

/-- A sound state stays sound when more items count as read. -/
theorem Sound.read_more {read : List Item} {state : ItemFolding} (sound : Sound read state)
    (more : List Item) : Sound (read ++ more) state where
  buffers buffer member item inside := (sound.buffers buffer member item inside).read_more more
  blocks index body found item inside := (sound.blocks index body found item inside).read_more more

/-- Closing a block keeps the state sound: the new block holds only older blocks, and
its marker stands where it stood. -/
theorem Sound.close {read current around : List Item} {outer blocks : List (List Item)} {item : Item}
    (sound : Sound read ⟨current, around :: outer, blocks⟩) (fresh : item ∈ read) :
    Sound read ⟨around ++ [.block blocks.length (current ++ [item])], outer,
      blocks ++ [current ++ [item]]⟩ := by
  have wide : blocks.length ≤ (blocks ++ [current ++ [item]]).length := by simp
  constructor
  · intro buffer member old inside
    rcases List.mem_cons.mp member with rfl | outside
    · rcases List.mem_append.mp inside with earlier | last
      · exact (sound.buffers around (by simp) old earlier).fold_more _ wide
      · refine .inr ⟨blocks.length, current ++ [item], by simp, by simp, ?_⟩
        exact List.mem_singleton.mp last
    · exact (sound.buffers buffer (by simp [outside]) old inside).fold_more _ wide
  · intro index body found old inside
    rcases Nat.lt_or_ge index blocks.length with below | above
    · rw [List.getElem?_append_left below] at found
      exact (sound.blocks index body found old inside).fold_more _ (Nat.le_refl index)
    · have last : index = blocks.length := by
        have bound := (List.getElem?_eq_some_iff.mp found).1
        rw [List.length_append, List.length_singleton] at bound
        omega
      subst last
      rw [List.getElem?_concat_length] at found
      rw [← Option.some.inj found] at inside
      rcases List.mem_append.mp inside with earlier | new
      · exact (sound.buffers current (by simp) old earlier).fold_more _ (Nat.le_refl _)
      · rw [List.mem_singleton.mp new]
        exact .inl fresh

/-- A transition keeps the state sound. -/
theorem Sound.step {read : List Item} {state next : ItemFolding} {item : Item}
    (sound : Sound read state) (transition : Step state item next) :
    Sound (read ++ [item]) next := by
  have fresh : item ∈ read ++ [item] := by simp
  have kept := sound.read_more [item]
  cases transition with
  | opening brace =>
      refine ⟨fun buffer member old inside => ?_, kept.blocks⟩
      rcases List.mem_cons.mp member with rfl | outside
      · rw [List.mem_singleton.mp inside]
        exact .inl fresh
      · exact kept.buffers buffer outside old inside
  | closing brace => exact kept.close fresh
  | keeping noOpening noClosing =>
      refine ⟨fun buffer member old inside => ?_, kept.blocks⟩
      rcases List.mem_cons.mp member with rfl | outside
      · rcases List.mem_append.mp inside with earlier | last
        · exact kept.buffers _ (by simp) old earlier
        · rw [List.mem_singleton.mp last]
          exact .inl fresh
      · exact kept.buffers buffer (by simp [outside]) old inside

/-- Every pass ends in a sound state. -/
theorem sound_run (items : List Item) : Sound items (run items) := by
  induction items using run_induction with
  | initial => exact ⟨by simp, by simp⟩
  | kept sound transition => exact sound.step transition

/-- The marker of a block. -/
def blockSegment (index : Nat) : Segment :=
  .marker (.ofIndex .block index)

/-- Nothing is lost or duplicated: the segments of the folded items and of all
blocks are those that were read and one marker for each block. -/
theorem perm_segments (items : List Item) :
    (((run items).finish ++ (run items).blocks.flatten).map Item.segment).Perm
      (items.map Item.segment ++ (List.range (run items).blocks.length).map blockSegment) := by
  induction items using run_induction with
  | initial => exact .refl _
  | @kept read state item next same transition =>
      rw [List.perm_iff_count] at same ⊢
      intro segment
      have counts := same segment
      cases transition with
      | opening =>
          simp only [finish, List.reverse_cons, List.flatten_append, List.map_append,
            List.count_append, List.flatten_cons, List.flatten_nil, List.append_nil,
            List.map_cons, List.map_nil] at counts ⊢
          omega
      | closing =>
          simp only [finish, List.reverse_cons, List.flatten_append, List.map_append,
            List.count_append, List.flatten_cons, List.flatten_nil, List.append_nil,
            List.map_cons, List.map_nil, List.length_append, List.length_singleton,
            List.range_succ, Item.block, blockSegment] at counts ⊢
          omega
      | keeping =>
          simp only [finish, List.reverse_cons, List.flatten_append, List.map_append,
            List.count_append, List.flatten_cons, List.flatten_nil, List.append_nil,
            List.map_cons, List.map_nil] at counts ⊢
          omega

/-! ### The pass on texts -/

/-- A state of the pass on texts that agrees with a state of the pass on items. -/
structure Related (items : ItemFolding) (state : Folding) : Prop where
  current : state.current = (items.current.flatMap Item.text).reverse
  outer : state.outer = items.outer.map fun buffer => (buffer.flatMap Item.text).reverse
  table : state.table = ⟨.block, items.blocks.map (List.flatMap Item.text)⟩

/-- Text without braces is collected. -/
theorem foldl_step_of_not_mem {text : Text} (noOpening : '\x7b' ∉ text) (noClosing : '\x7d' ∉ text)
    (state : Folding) :
    text.foldl Folding.step state = { state with current := text.reverse ++ state.current } := by
  induction text generalizing state with
  | nil => rfl
  | cons c text inductionHypothesis =>
      rw [List.mem_cons, not_or] at noOpening noClosing
      have kept : state.step c = { state with current := c :: state.current } := by
        simp [Folding.step, Ne.symm noOpening.1, Ne.symm noClosing.1]
      rw [List.foldl_cons, kept, inductionHypothesis noOpening.2 noClosing.2]
      simp

/-- A valid segment is a brace or holds none. -/
theorem not_mem_text_of_valid {segment : Segment} (valid : segment.Valid) {brace : Char}
    (isBrace : brace = '\x7b' ∨ brace = '\x7d') (different : segment ≠ .plain brace) :
    brace ∉ segment.text := by
  cases segment with
  | plain c =>
      intro member
      rw [List.mem_singleton.mp member] at different
      exact different rfl
  | marker found =>
      obtain ⟨kind, digits⟩ := found
      rcases isBrace with rfl | rfl <;> cases kind <;>
        exact Marker.Valid.not_mem_text valid (by decide) (by decide) (by decide)

/-- One item moves the folding of items as its characters move the folding of text. -/
theorem Related.step {items : ItemFolding} {state : Folding} (related : Related items state)
    {item : Item} (valid : item.segment.Valid) :
    Related (items.step item) (item.text.foldl Folding.step state) := by
  have transition := step_spec items item
  generalize items.step item = next at transition
  cases transition with
  | opening brace =>
      have text : item.text = ['\x7b'] := by simp [Item.text, brace, Segment.text]
      refine ⟨?_, ?_, ?_⟩
      · simp [text, Folding.step]
      · simp [text, Folding.step, related.current, related.outer]
      · simp [text, Folding.step, related.table]
  | @closing current around outer blocks _ brace =>
      have text : item.text = ['\x7d'] := by simp [Item.text, brace, Segment.text]
      have marker : (Item.block blocks.length (current ++ [item])).text =
          MarkerKind.block.format blocks.length :=
        Marker.text_ofIndex .block blocks.length
      have stack : state.outer = (around.flatMap Item.text).reverse ::
          outer.map fun buffer => (buffer.flatMap Item.text).reverse := related.outer
      have closed : item.text.foldl Folding.step state =
          ⟨(MarkerKind.block.format blocks.length).reverse ++ (around.flatMap Item.text).reverse,
            outer.map fun buffer => (buffer.flatMap Item.text).reverse,
            ⟨.block, blocks.map (List.flatMap Item.text) ++
              [(current ++ [item]).flatMap Item.text]⟩⟩ := by
        rw [text, List.foldl_cons, List.foldl_nil, Folding.step, if_neg (by decide),
          if_pos rfl, stack]
        simp [FragmentTable.mark, FragmentTable.push, FragmentTable.size, related.table,
          related.current, text]
      rw [closed]
      refine ⟨?_, rfl, ?_⟩
      · simp [marker]
      · simp
  | keeping noOpening noClosing =>
      by_cases closing : item.segment = .plain '\x7d'
      · have text : item.text = ['\x7d'] := by simp [Item.text, closing, Segment.text]
        have empty := noClosing closing
        have stack : state.outer = [] := by rw [related.outer, empty]; rfl
        rw [text, List.foldl_cons, List.foldl_nil, Folding.step, if_neg (by decide),
          if_pos rfl, stack]
        refine ⟨?_, ?_, related.table⟩
        · simp [related.current, text]
        · simp [empty]
      · have collected := foldl_step_of_not_mem
          (not_mem_text_of_valid valid (.inl rfl) noOpening)
          (not_mem_text_of_valid valid (.inr rfl) closing) state
        rw [← Item.text] at collected
        rw [collected]
        refine ⟨?_, related.outer, related.table⟩
        simp [related.current]

/-- The folded items spell the folded text. -/
theorem Related.finish {items : ItemFolding} {state : Folding} (related : Related items state) :
    state.finish = items.finish.flatMap Item.text := by
  have reversed : ∀ buffers : List (List Item),
      (buffers.map fun buffer => (buffer.flatMap Item.text).reverse).flatten.reverse =
        buffers.reverse.flatten.flatMap Item.text := by
    intro buffers
    induction buffers with
    | nil => rfl
    | cons buffer buffers inductionHypothesis => simp [inductionHypothesis]
  rw [Folding.finish, related.current, related.outer, ← List.flatten_cons]
  exact reversed (items.current :: items.outer)

/-- Folding the text of items is folding the items. -/
theorem foldBlocks_items {items : List Item} (valid : ∀ item ∈ items, item.segment.Valid) :
    foldBlocks (items.flatMap Item.text) { kind := .block } =
      ((run items).finish.flatMap Item.text,
        ⟨.block, (run items).blocks.map (List.flatMap Item.text)⟩) := by
  have along : ∀ (items : List Item), (∀ item ∈ items, item.segment.Valid) →
      ∀ (before : ItemFolding) (state : Folding), Related before state →
        Related (items.foldl ItemFolding.step before)
          ((items.flatMap Item.text).foldl Folding.step state) := by
    intro items
    induction items with
    | nil => exact fun _ _ _ related => related
    | cons item items inductionHypothesis =>
        intro valid before state related
        rw [List.flatMap_cons, List.foldl_append, List.foldl_cons]
        exact inductionHypothesis (fun other member => valid other (by simp [member])) _ _
          (related.step (valid item (by simp)))
  have related := along items valid {} { table := { kind := .block } } ⟨rfl, rfl, rfl⟩
  unfold foldBlocks
  rw [Prod.mk.injEq]
  exact ⟨related.finish, related.table⟩

end ItemFolding

end HeaderBook.Source
