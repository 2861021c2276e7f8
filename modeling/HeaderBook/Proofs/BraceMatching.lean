import Mathlib.Data.List.Induction
import HeaderBook.Proofs.SourceDocument

/-!
# Matched braces and folded blocks

`matchedPairs` matches the braces among the tokens of a source with a stack of
positions and leaves surplus braces unmatched. Folding works on buffers of text
instead. Both are followed together: every block of the folded items spans a
matched pair, and every matched pair lies within such a block. A position is
therefore inside a matched pair exactly when a block covers it between its braces.
-/

namespace HeaderBook.Source

/-! ### Matching -/

/-- The state of matching braces. -/
structure Matching where
  /-- The number of tokens read, which is the position of the next one. -/
  position : Nat := 0
  /-- The positions of the open braces, the innermost first. -/
  opened : List Nat := []
  /-- The matched pairs so far. -/
  pairs : List (Nat × Nat) := []

namespace Matching

/-- Takes one more token. -/
def step (state : Matching) (token : Token) : Matching :=
  if token = .char '\x7b' then
    { state with position := state.position + 1, opened := state.position :: state.opened }
  else if token = .char '\x7d' then
    match state.opened with
    | [] => { state with position := state.position + 1 }
    | start :: opened =>
      { position := state.position + 1
        opened
        pairs := state.pairs ++ [(start, state.position)] }
  else
    { state with position := state.position + 1 }

/-- The positions that hold an open or a matched brace really do. -/
structure Sound (read : List Token) (state : Matching) : Prop where
  position : state.position = read.length
  opened : ∀ start ∈ state.opened, read[start]? = some (.char '\x7b')
  pairs : ∀ pair ∈ state.pairs,
    read[pair.1]? = some (.char '\x7b') ∧ read[pair.2]? = some (.char '\x7d')

/-- One more token keeps the spans of the closed blocks right. -/
theorem Sound.step {read : List Token} {state : Matching} (sound : Sound read state)
    (token : Token) : Sound (read ++ [token]) (state.step token) := by
  have kept : ∀ {position : Nat} {old : Token}, read[position]? = some old →
      (read ++ [token])[position]? = some old := by
    intro position old found
    rw [List.getElem?_append_left (List.getElem?_eq_some_iff.mp found).1]
    exact found
  have last : (read ++ [token])[state.position]? = some token := by
    rw [sound.position, List.getElem?_concat_length]
  have position : state.position + 1 = (read ++ [token]).length := by
    rw [sound.position, List.length_append, List.length_singleton]
  have opened : ∀ start ∈ state.opened, (read ++ [token])[start]? = some (.char '\x7b') :=
    fun start member => kept (sound.opened start member)
  have pairs : ∀ pair ∈ state.pairs, (read ++ [token])[pair.1]? = some (.char '\x7b') ∧
      (read ++ [token])[pair.2]? = some (.char '\x7d') :=
    fun pair member => ⟨kept (sound.pairs pair member).1, kept (sound.pairs pair member).2⟩
  unfold Matching.step
  split
  next opening =>
    refine ⟨position, fun start member => ?_, pairs⟩
    rcases List.mem_cons.mp member with rfl | earlier
    · rw [last, opening]
    · exact opened start earlier
  · split
    next closing =>
      split
      next empty => exact ⟨position, opened, pairs⟩
      next start rest stack =>
        rw [stack] at opened
        refine ⟨position, fun other member => opened other (List.mem_cons_of_mem _ member), ?_⟩
        intro pair member
        rcases List.mem_append.mp member with earlier | new
        · exact pairs pair earlier
        · rw [List.mem_singleton.mp new]
          exact ⟨opened start List.mem_cons_self, by rw [last, closing]⟩
    · exact ⟨position, opened, pairs⟩

/-- What is read on one token after another stays sound. -/
theorem sound_run (tokens : List Token) : (tokens.foldl step {}).Sound tokens := by
  have along : ∀ (tokens read : List Token) (state : Matching), state.Sound read →
      (tokens.foldl Matching.step state).Sound (read ++ tokens) := by
    intro tokens
    induction tokens with
    | nil =>
        intro read state sound
        rwa [List.append_nil]
    | cons token tokens inductionHypothesis =>
        intro read state sound
        have next := inductionHypothesis _ _ (sound.step token)
        rwa [List.append_assoc, List.singleton_append] at next
  have initial : ({} : Matching).Sound [] := ⟨rfl, nofun, nofun⟩
  exact along tokens [] {} initial

end Matching

/-- The positions of the braces that match each other, in closing order. -/
def matchedPairs (tokens : List Token) : List (Nat × Nat) :=
  (tokens.foldl Matching.step {}).pairs

/-- A matched pair begins with an opening and ends with a closing brace. -/
theorem braces_of_mem_matchedPairs {tokens : List Token} {pair : Nat × Nat}
    (member : pair ∈ matchedPairs tokens) :
    tokens[pair.1]? = some (.char '\x7b') ∧ tokens[pair.2]? = some (.char '\x7d') :=
  (Matching.sound_run tokens).pairs pair member

/-! ### Where items stand -/

/-- The number of tokens that items cover. -/
def width (items : List Item) : Nat :=
  (items.flatMap Item.covered).length

/-- No items cover no tokens. -/
@[simp] theorem width_nil : width [] = 0 :=
  rfl

/-- Items cover as many tokens as the first and the others together. -/
@[simp] theorem width_cons (item : Item) (items : List Item) :
    width (item :: items) = item.covered.length + width items := by
  rw [width, List.flatMap_cons, List.length_append]
  rfl

/-- Two lists of items cover as many tokens together as each by itself. -/
@[simp] theorem width_append (left right : List Item) :
    width (left ++ right) = width left + width right := by
  rw [width, List.flatMap_append, List.length_append]
  rfl

/-- `item` stands among `items` and covers the positions from `start` to `stop`. -/
def StandsAt (items : List Item) (item : Item) (start stop : Nat) : Prop :=
  ∃ left right, items = left ++ item :: right ∧ start = width left ∧
    stop = start + item.covered.length

namespace StandsAt

/-- An item that stands in a list is one of the list. -/
theorem mem {items : List Item} {item : Item} {start stop : Nat}
    (stands : StandsAt items item start stop) : item ∈ items := by
  obtain ⟨left, right, rfl, _⟩ := stands
  exact List.mem_append_right left List.mem_cons_self

/-- An item stands where it stood when more items follow. -/
theorem append_right {items : List Item} {item : Item} {start stop : Nat}
    (stands : StandsAt items item start stop) (more : List Item) :
    StandsAt (items ++ more) item start stop := by
  obtain ⟨left, right, rfl, begins, ends⟩ := stands
  exact ⟨left, right ++ more, by simp, begins, ends⟩

/-- The last item stands at the end. -/
theorem concat (items : List Item) (item : Item) :
    StandsAt (items ++ [item]) item (width items) (width items + item.covered.length) :=
  ⟨items, [], rfl, rfl, rfl⟩

/-- No item reaches beyond the tokens that are covered. -/
theorem stop_le {items : List Item} {item : Item} {start stop : Nat}
    (stands : StandsAt items item start stop) : stop ≤ width items := by
  obtain ⟨left, right, rfl, rfl, rfl⟩ := stands
  rw [width_append, width_cons]
  omega

/-- In a list of one item, that item stands at the start. -/
theorem of_singleton {single item : Item} {start stop : Nat}
    (stands : StandsAt [single] item start stop) :
    item = single ∧ start = 0 ∧ stop = single.covered.length := by
  obtain ⟨left, right, split, rfl, rfl⟩ := stands
  cases left with
  | nil =>
      obtain ⟨rfl, _⟩ := List.cons.inj split
      simp
  | cons first left => simp at split

/-- An item of a concatenation stands in one of its two parts. -/
theorem of_append {front items : List Item} {item : Item} {start stop : Nat}
    (stands : StandsAt (front ++ items) item start stop) :
    StandsAt front item start stop ∨ ∃ start' stop', StandsAt items item start' stop' ∧
      start = width front + start' ∧ stop = width front + stop' := by
  obtain ⟨left, right, split, rfl, rfl⟩ := stands
  rcases List.append_eq_append_iff.mp split with ⟨overlap, rfl, later⟩ | ⟨overlap, rfl, later⟩
  · refine .inr ⟨_, _, ⟨overlap, right, later, rfl, rfl⟩, width_append front overlap, ?_⟩
    rw [width_append, Nat.add_assoc]
  · cases overlap with
    | nil =>
        refine .inr ⟨_, _, ⟨[], right, later.symm, rfl, rfl⟩, ?_, ?_⟩
        · simp
        · simp
    | cons first overlap =>
        obtain ⟨rfl, _⟩ := List.cons.inj later
        exact .inl ⟨left, overlap, rfl, rfl, rfl⟩

/-- What reaches between two parts of the items stands between them. -/
theorem mem_between {items front middle rest : List Item} {item : Item} {start stop : Nat}
    (stands : StandsAt items item start stop) (whole : items = front ++ middle ++ rest)
    (after : width front < stop) (before : start < width front + width middle) :
    item ∈ middle := by
  rw [whole] at stands
  rcases stands.of_append with inFront | ⟨_, _, _, rfl, rfl⟩
  · rcases inFront.of_append with early | ⟨_, _, inside, _⟩
    · have bound := early.stop_le
      omega
    · exact inside.mem
  · rw [width_append] at before
    omega

/-- Two items are the same, or one stands before the other. -/
theorem compare {items : List Item} {first second : Item} {start stop start' stop' : Nat}
    (one : StandsAt items first start stop) (other : StandsAt items second start' stop') :
    (first = second ∧ start = start' ∧ stop = stop') ∨ stop ≤ start' ∨ stop' ≤ start := by
  obtain ⟨left, right, rfl, rfl, rfl⟩ := one
  obtain ⟨left', right', split, rfl, rfl⟩ := other
  rcases List.append_eq_append_iff.mp split with ⟨overlap, rfl, later⟩ | ⟨overlap, rfl, later⟩
  · cases overlap with
    | nil =>
        obtain ⟨rfl, _⟩ := List.cons.inj later
        simp
    | cons between overlap =>
        obtain ⟨rfl, _⟩ := List.cons.inj later
        refine .inr (.inl ?_)
        rw [width_append, width_cons]
        omega
  · cases overlap with
    | nil =>
        obtain ⟨rfl, _⟩ := List.cons.inj later
        simp
    | cons between overlap =>
        obtain ⟨rfl, _⟩ := List.cons.inj later
        refine .inr (.inr ?_)
        rw [width_append, width_cons]
        omega

/-- Every covered position belongs to an item. -/
theorem exists_of_lt {items : List Item} {position : Nat} (inside : position < width items) :
    ∃ item start stop, StandsAt items item start stop ∧ start ≤ position ∧ position < stop := by
  induction items using List.reverseRecOn with
  | nil => exact absurd inside (Nat.not_lt_zero _)
  | append_singleton items item inductionHypothesis =>
      rcases Nat.lt_or_ge position (width items) with earlier | last
      · obtain ⟨found, start, stop, stands, lower, upper⟩ := inductionHypothesis earlier
        exact ⟨found, start, stop, stands.append_right [item], lower, upper⟩
      · refine ⟨item, _, _, concat items item, last, ?_⟩
        rw [width_append, width_cons, width_nil] at inside
        omega

end StandsAt

/-! ### Following both -/

/-- An item that stands for a single token. -/
structure Item.Atomic (item : Item) (token : Token) : Prop where
  covered : item.covered = [token]
  plain : ∀ {c : Char}, c ≠ '&' → (item.segment = .plain c ↔ token = .char c)
  run : item.isRun = true ↔ ∃ lines, token = .comment lines
  noBlock : item.kind? ≠ some .block

/-- Every item that is read stands for one token. -/
theorem Item.atomic_of_mem_items {source : Text} {item : Item} (member : item ∈ items source) :
    ∃ token, item.Atomic token := by
  cases Item.leaf_of_mem_ofTokens member with
  | @char c _ =>
      refine ⟨.char c, rfl, fun {d} ordinary => ?_, ?_, ?_⟩
      · by_cases ampersand : c = '&'
        · subst ampersand
          simp [Item.charSegment, ordinary.symm]
        · simp [Item.charSegment, ampersand]
      · by_cases ampersand : c = '&' <;>
          simp [Item.isRun, Item.kind?, Item.charSegment, ampersand]
      · by_cases ampersand : c = '&' <;> simp [Item.kind?, Item.charSegment, ampersand]
  | @marker digits _ =>
      exact ⟨.marker digits, rfl, by simp, by simp [Item.isRun, Item.kind?], by simp [Item.kind?]⟩
  | @literal position text _ =>
      exact ⟨.literal text, rfl, by simp, by simp [Item.isRun, Item.kind?], by simp [Item.kind?]⟩
  | @comment position lines _ =>
      exact ⟨.comment lines, rfl, by simp, by simp [Item.isRun, Item.kind?], by simp [Item.kind?]⟩

namespace ItemFolding

/-- The positions at which the buffers above the given ones begin. -/
def starts : List (List Item) → List Nat
  | [] => []
  | buffer :: outer => width (buffer :: outer).reverse.flatten :: starts outer

/-- Folding and matching have read the same tokens. -/
structure Agrees (state : ItemFolding) (matching : Matching) : Prop where
  position : matching.position = width state.finish
  opened : matching.opened = starts state.outer
  /-- A folded block spans a matched pair. -/
  spanned : ∀ {item start stop}, StandsAt state.finish item start stop →
    item.kind? = some .block →
      ∃ last, stop = last + 1 ∧ start ≤ last ∧ (start, last) ∈ matching.pairs
  /-- A matched pair lies within a folded block. -/
  enclosed : ∀ pair ∈ matching.pairs, ∃ item start stop,
    StandsAt state.finish item start stop ∧ item.kind? = some .block ∧
      start ≤ pair.1 ∧ pair.2 < stop

/-- Reading a single token into the innermost buffer keeps the pairs. -/
theorem Agrees.concat {state next : ItemFolding} {matching : Matching} {item : Item} {token : Token}
    (agrees : Agrees state matching) (atomic : item.Atomic token)
    (finish : next.finish = state.finish ++ [item]) {opened : List Nat}
    (stack : opened = starts next.outer) :
    Agrees next ⟨matching.position + 1, opened, matching.pairs⟩ := by
  refine ⟨?_, stack, fun stands block => ?_, fun pair member => ?_⟩
  · rw [finish, width_append, ← agrees.position, width_cons, atomic.covered]
    rfl
  · rw [finish] at stands
    rcases stands.of_append with earlier | ⟨_, _, last, _⟩
    · exact agrees.spanned earlier block
    · rw [last.of_singleton.1] at block
      exact absurd block atomic.noBlock
  · obtain ⟨found, start, stop, stands, block, lower, upper⟩ := agrees.enclosed pair member
    rw [finish]
    exact ⟨found, start, stop, stands.append_right [item], block, lower, upper⟩

/-- Closing a block turns the innermost buffer into one item, which spans the new
pair and encloses every pair that lay in the buffer. -/
theorem Agrees.close {current around : List Item} {outer blocks : List (List Item)}
    {matching : Matching} {item : Item} {token : Token}
    (agrees : Agrees ⟨current, around :: outer, blocks⟩ matching) (atomic : item.Atomic token) :
    Agrees ⟨around ++ [.block blocks.length (current ++ [item])], outer, blocks ++ [current ++ [item]]⟩
      ⟨matching.position + 1, starts outer,
        matching.pairs ++ [(width (around :: outer).reverse.flatten, matching.position)]⟩ := by
  generalize front : (around :: outer).reverse.flatten = items
  generalize folded : Item.block blocks.length (current ++ [item]) = block
  have before : finish ⟨current, around :: outer, blocks⟩ = items ++ current := by
    rw [← front]
    simp [finish]
  have after : finish ⟨around ++ [block], outer, blocks ++ [current ++ [item]]⟩ =
      items ++ [block] := by
    rw [← front]
    simp [finish]
  have position : matching.position = width items + width current := by
    rw [agrees.position, before, width_append]
  have isBlock : block.kind? = some .block := by
    rw [← folded]
    rfl
  have size : block.covered.length = width current + 1 := by
    have covered : block.covered.length = width (current ++ [item]) := by
      rw [← folded]
      rfl
    rw [covered, width_append, width_cons, atomic.covered]
    rfl
  have stands := StandsAt.concat items block
  refine ⟨?_, rfl, fun {found start stop} place kind => ?_, fun pair member => ?_⟩
  · rw [after, width_append, width_cons, size, position]
    simp only [width_nil]
    omega
  · rw [after] at place
    rcases place.of_append with inFront | ⟨_, _, last, rfl, rfl⟩
    · have old := inFront.append_right current
      rw [← before] at old
      obtain ⟨last, ends, order, recorded⟩ := agrees.spanned old kind
      exact ⟨last, ends, order, List.mem_append_left _ recorded⟩
    · obtain ⟨rfl, rfl, rfl⟩ := last.of_singleton
      refine ⟨matching.position, by omega, by omega, ?_⟩
      exact List.mem_append_right _ List.mem_cons_self
  · rw [after]
    rcases List.mem_append.mp member with old | new
    · obtain ⟨found, start, stop, place, kind, lower, upper⟩ := agrees.enclosed pair old
      rw [before] at place
      rcases place.of_append with inFront | ⟨_, _, inside, rfl, rfl⟩
      · exact ⟨found, start, stop, inFront.append_right [block], kind, lower, upper⟩
      · have bound := inside.stop_le
        exact ⟨block, _, _, stands, isBlock, by omega, by omega⟩
    · rw [List.mem_singleton.mp new]
      exact ⟨block, _, _, stands, isBlock, Nat.le_refl _, by omega⟩

/-- A transition of the folding agrees with the step of the matching for the same token. -/
theorem Agrees.step {state next : ItemFolding} {matching : Matching} {item : Item} {token : Token}
    (agrees : Agrees state matching) (atomic : item.Atomic token)
    (transition : Step state item next) : Agrees next (matching.step token) := by
  have opens := atomic.plain (c := '\x7b') (by decide)
  have closes := atomic.plain (c := '\x7d') (by decide)
  cases transition with
  | opening brace =>
      rw [Matching.step, if_pos (opens.mp brace)]
      have finish : finish ⟨[item], state.current :: state.outer, state.blocks⟩ =
          state.finish ++ [item] := by
        simp [ItemFolding.finish]
      refine agrees.concat atomic finish ?_
      rw [agrees.position, agrees.opened]
      rfl
  | @closing current around outer blocks _ brace =>
      have stack : matching.opened = width (around :: outer).reverse.flatten :: starts outer :=
        agrees.opened
      rw [Matching.step, if_neg fun opening => ?_, if_pos (closes.mp brace), stack]
      · exact agrees.close atomic
      · simp [closes.mp brace] at opening
  | keeping noOpening noClosing =>
      have finish : finish ⟨state.current ++ [item], state.outer, state.blocks⟩ =
          state.finish ++ [item] := by
        simp [ItemFolding.finish]
      have kept := agrees.concat atomic finish agrees.opened
      rw [Matching.step, if_neg fun brace => noOpening (opens.mpr brace)]
      split
      next brace =>
        have empty := noClosing (closes.mpr brace)
        have bottom : matching.opened = [] := by
          rw [agrees.opened, empty]
          rfl
        rw [bottom] at kept ⊢
        exact kept
      · exact kept

/-- Folding the items of a source agrees with matching its tokens. -/
theorem agrees_run {items : List Item} (atomic : ∀ item ∈ items, ∃ token, item.Atomic token) :
    Agrees (run items) ((items.flatMap Item.covered).foldl Matching.step {}) := by
  induction items using run_induction with
  | initial =>
      refine ⟨rfl, rfl, fun stands => ?_, nofun⟩
      exact absurd stands.mem List.not_mem_nil
  | @kept read state item next inductionHypothesis transition =>
      have agrees := inductionHypothesis fun other member =>
        atomic other (List.mem_append_left _ member)
      obtain ⟨token, single⟩ := atomic item (List.mem_append_right _ List.mem_cons_self)
      rw [List.flatMap_append, List.foldl_append, List.flatMap_singleton, single.covered]
      exact agrees.step single transition

end ItemFolding

end HeaderBook.Source
