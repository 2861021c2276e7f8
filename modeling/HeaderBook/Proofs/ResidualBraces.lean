import Mathlib.Combinatorics.Enumerative.DyckWord
import HeaderBook.Proofs.BraceMatching
import HeaderBook.Proofs.InnermostFolding

/-!
# What folding leaves behind

The braces that stack matching leaves unmatched are closing braces with nothing
open before them and opening braces that nothing closes. They are the braces of the
folded text, and all closing ones stand before all opening ones.

`Tally` counts unmatched and matched braces while a text is read. Three facts follow
from it, each by one induction: what the matching has found, what the buffers of a
folding pass hold, and whether the braces are a Dyck word.
-/

namespace HeaderBook.Source

open DyckStep (U D)

/-- `isBrace c` holds for the two braces. -/
def isBrace (c : Char) : Bool :=
  c = '\x7b' || c = '\x7d'

/-- The braces of a text in their order. -/
def braces (text : Text) : Text :=
  text.filter isBrace

/-- The step of a Dyck path that a brace is: up for an opening one. -/
def braceStep (c : Char) : DyckStep :=
  if c = '\x7b' then U else D

/-- The path of a text's braces. -/
def bracePath (text : Text) : List DyckStep :=
  (braces text).map braceStep

/-- The braces of a text form a balanced word. -/
def Balanced (text : Text) : Prop :=
  ∃ word : DyckWord, word.toList = bracePath text

/-- The positions at which `brace` stands in a text, less those that are matched. -/
def unmatched (brace : Char) (matched : List Nat) (text : Text) : List Nat :=
  (List.range text.length).filter fun position => text[position]? = some brace ∧ position ∉ matched

/-- The positions of the opening braces with which no matched pair begins. -/
def unmatchedOpening (text : Text) : List Nat :=
  unmatched '\x7b' ((matchedPairs (text.map .char)).map Prod.fst) text

/-- The positions of the closing braces with which no matched pair ends. -/
def unmatchedClosing (text : Text) : List Nat :=
  unmatched '\x7d' ((matchedPairs (text.map .char)).map Prod.snd) text

/-- How many closing braces of a text are unmatched, how many opening braces are, and how
many pairs are matched. -/
inductive Tally : Text → Nat → Nat → Nat → Prop where
  | nil : Tally [] 0 0 0
  | opening {read : Text} {closing opened pairs : Nat} (before : Tally read closing opened pairs) :
      Tally (read ++ ['\x7b']) closing (opened + 1) pairs
  | pair {read : Text} {closing opened pairs : Nat}
      (before : Tally read closing (opened + 1) pairs) :
      Tally (read ++ ['\x7d']) closing opened (pairs + 1)
  | stray {read : Text} {closing pairs : Nat} (before : Tally read closing 0 pairs) :
      Tally (read ++ ['\x7d']) (closing + 1) 0 pairs
  | other {read : Text} {closing opened pairs : Nat} {c : Char} (plain : isBrace c = false)
      (before : Tally read closing opened pairs) :
      Tally (read ++ [c]) closing opened pairs

/-! ### Counting what is unmatched -/

/-- Each unmatched brace is listed once. -/
theorem nodup_unmatched (brace : Char) (matched : List Nat) (text : Text) :
    (unmatched brace matched text).Nodup :=
  List.nodup_range.filter _

/-- No brace stands behind the end. -/
theorem length_not_mem_unmatched (brace : Char) (matched : List Nat) (text : Text) :
    text.length ∉ unmatched brace matched text :=
  fun member => Nat.lt_irrefl _ (List.mem_range.mp (List.mem_of_mem_filter member))

/-- A position is unmatched as long as no later brace is matched with it. -/
theorem unmatched_concat {brace : Char} {matched : List Nat} {text : Text} {c : Char}
    (fresh : text.length ∉ matched) :
    unmatched brace matched (text ++ [c]) =
      unmatched brace matched text ++ if c = brace then [text.length] else [] := by
  have earlier : (List.range text.length).filter (fun position =>
      (text ++ [c])[position]? = some brace ∧ position ∉ matched) = unmatched brace matched text := by
    refine List.filter_congr fun position member => ?_
    rw [List.getElem?_append_left (List.mem_range.mp member)]
  rw [unmatched, List.length_append, List.length_singleton, List.range_succ, List.filter_append,
    earlier]
  congr 1
  by_cases same : c = brace <;> simp [same, fresh]

/-- One more matched position is one unmatched position less. -/
theorem unmatched_matched_concat (brace : Char) (matched : List Nat) (position : Nat) (text : Text) :
    unmatched brace (matched ++ [position]) text = (unmatched brace matched text).erase position := by
  rw [(nodup_unmatched brace matched text).erase_eq_filter, unmatched, unmatched, List.filter_filter]
  refine List.filter_congr fun other _ => ?_
  simp only [List.mem_append, List.mem_singleton, not_or]
  grind

/-- The state in which matching the braces of a text ends. -/
def matching (text : Text) : Matching :=
  (text.map .char).foldl Matching.step {}

/-- Matching has counted every character. -/
theorem position_matching (text : Text) : (matching text).position = text.length :=
  (Matching.sound_run (text.map .char)).position.trans (List.length_map _)

/-- Matching goes on from where it stopped. -/
theorem matching_concat (read : Text) (c : Char) :
    matching (read ++ [c]) = (matching read).step (.char c) := by
  simp [matching]

/-- An opening brace is put on the stack. -/
theorem matching_opening (read : Text) : matching (read ++ ['\x7b']) =
    ⟨read.length + 1, read.length :: (matching read).opened, (matching read).pairs⟩ := by
  rw [matching_concat, Matching.step, if_pos rfl, position_matching]

/-- A closing brace with none open is passed over. -/
theorem matching_stray {read : Text} (stack : (matching read).opened = []) :
    matching (read ++ ['\x7d']) = ⟨read.length + 1, [], (matching read).pairs⟩ := by
  rw [matching_concat, Matching.step, if_neg (by decide), if_pos rfl, stack, position_matching]

/-- A closing brace is matched with the innermost open one. -/
theorem matching_pair {read : Text} {start : Nat} {outer : List Nat}
    (stack : (matching read).opened = start :: outer) : matching (read ++ ['\x7d']) =
      ⟨read.length + 1, outer, (matching read).pairs ++ [(start, read.length)]⟩ := by
  rw [matching_concat, Matching.step, if_neg (by decide), if_pos rfl, stack, position_matching]

/-- Any other character is passed over. -/
theorem matching_other (read : Text) {c : Char} (noOpening : c ≠ '\x7b') (noClosing : c ≠ '\x7d') :
    matching (read ++ [c]) =
      ⟨read.length + 1, (matching read).opened, (matching read).pairs⟩ := by
  rw [matching_concat, Matching.step, if_neg (by simpa using noOpening),
    if_neg (by simpa using noClosing), position_matching]

/-- No pair reaches the position that is read next. -/
theorem length_not_mem_pairs (text : Text) :
    text.length ∉ (matching text).pairs.map Prod.fst ∧
      text.length ∉ (matching text).pairs.map Prod.snd := by
  have past {c : Char} (found : (text.map Token.char)[text.length]? = some (.char c)) : False := by
    simp at found
  constructor <;> rw [List.mem_map] <;> rintro ⟨pair, member, equal⟩
  · exact past (equal ▸ (braces_of_mem_matchedPairs member).1)
  · exact past (equal ▸ (braces_of_mem_matchedPairs member).2)

/-- The unmatched opening braces, by the state in which matching ends. -/
theorem unmatchedOpening_eq (text : Text) : unmatchedOpening text =
    unmatched '\x7b' ((matching text).pairs.map Prod.fst) text :=
  rfl

/-- The unmatched closing braces, by the state in which matching ends. -/
theorem unmatchedClosing_eq (text : Text) : unmatchedClosing text =
    unmatched '\x7d' ((matching text).pairs.map Prod.snd) text :=
  rfl

/-- The stack of the matching holds the unmatched opening braces, and the tally counts what
the matching has found. -/
theorem tally_of_matching (text : Text) :
    unmatchedOpening text = (matching text).opened.reverse ∧
      Tally text (unmatchedClosing text).length (matching text).opened.length
        (matching text).pairs.length := by
  induction text using List.reverseRecOn with
  | nil => exact ⟨rfl, .nil⟩
  | append_singleton read c inductionHypothesis =>
      obtain ⟨stack, tally⟩ := inductionHypothesis
      obtain ⟨freshStart, freshEnd⟩ := length_not_mem_pairs read
      rw [unmatchedOpening_eq] at stack ⊢
      rw [unmatchedClosing_eq] at tally ⊢
      by_cases opening : c = '\x7b'
      · subst opening
        rw [matching_opening, unmatched_concat freshStart, unmatched_concat freshEnd, stack]
        exact ⟨by simp, by simpa using tally.opening⟩
      by_cases closing : c = '\x7d'
      · subst closing
        cases opened : (matching read).opened with
        | nil =>
            rw [opened] at stack tally
            rw [matching_stray opened, unmatched_concat freshStart, unmatched_concat freshEnd, stack]
            exact ⟨by simp, by simpa using tally.stray⟩
        | cons start outer =>
            rw [opened] at stack tally
            have once : start ∉ outer := by
              have nodup := nodup_unmatched '\x7b' ((matching read).pairs.map Prod.fst) read
              rw [stack, List.nodup_reverse] at nodup
              exact (List.nodup_cons.mp nodup).1
            rw [matching_pair opened, List.map_append, List.map_append, List.map_singleton,
              List.map_singleton, unmatched_matched_concat, unmatched_matched_concat,
              unmatched_concat freshStart, unmatched_concat freshEnd, stack]
            constructor
            · simp [List.erase_append_right, once]
            · rw [if_pos rfl, List.erase_append_right _ (length_not_mem_unmatched _ _ read)]
              simpa using tally.pair
      · have plain : isBrace c = false := by simp [isBrace, opening, closing]
        rw [matching_other read opening closing, unmatched_concat freshStart,
          unmatched_concat freshEnd, stack, if_neg opening, if_neg closing]
        exact ⟨by simp, by simpa using tally.other plain⟩

/-! ### The buffers of a folding pass -/

@[simp] theorem braces_append (left right : Text) :
    braces (left ++ right) = braces left ++ braces right :=
  List.filter_append left right

@[simp] theorem braces_reverse (text : Text) : braces text.reverse = (braces text).reverse :=
  List.filter_reverse

/-- A text has no braces exactly when it has none of either kind. -/
theorem braces_eq_nil_iff {text : Text} : braces text = [] ↔ '\x7b' ∉ text ∧ '\x7d' ∉ text := by
  rw [braces, List.filter_eq_nil_iff]
  grind [isBrace]

/-- A marker has no braces. -/
theorem braces_format (kind : MarkerKind) (index : Nat) : braces (kind.format index) = [] :=
  braces_eq_nil_iff.mpr
    ⟨brace_not_mem_format kind index (.inl rfl), brace_not_mem_format kind index (.inr rfl)⟩

/-- The buffers of a folding pass, their characters last first: the outermost holds only
unmatched closing braces, and every other holds only the brace that opened it. -/
inductive Buffers (closing : Nat) : Text → List Text → Prop where
  | outermost {current : Text} (strays : braces current = List.replicate closing '\x7d') :
      Buffers closing current []
  | inner {current body around : Text} {outer : List Text} (opened : current = body ++ ['\x7b'])
      (bare : braces body = []) (outside : Buffers closing around outer) :
      Buffers closing current (around :: outer)

/-- A text without braces may be added to the current buffer. -/
theorem Buffers.collect {closing : Nat} {current : Text} {outer : List Text}
    (buffers : Buffers closing current outer) {more : Text} (bare : braces more = []) :
    Buffers closing (more ++ current) outer := by
  cases buffers with
  | outermost strays => exact .outermost (by simp [bare, strays])
  | inner opened bareBody outside =>
      rw [opened, ← List.append_assoc]
      exact .inner rfl (by simp [bare, bareBody]) outside

/-- What is left of the braces: closing ones, then an opening one for each outer buffer. -/
theorem Buffers.braces_finish {closing : Nat} {current : Text} {outer : List Text}
    (buffers : Buffers closing current outer) :
    braces (current ++ outer.flatten) =
      List.replicate outer.length '\x7b' ++ List.replicate closing '\x7d' := by
  induction buffers with
  | outermost strays => simp [strays]
  | inner opened bare _ inductionHypothesis =>
      rw [List.flatten_cons, braces_append, inductionHypothesis, opened, braces_append, bare]
      rfl

/-- What a folding pass holds: buffers with unmatched braces, and a block for each pair. -/
structure Residue (table : FragmentTable) (closing opened pairs : Nat) (state : Folding) : Prop where
  buffers : Buffers closing state.current state.outer
  depth : state.outer.length = opened
  captured : ∃ added, state.table = table.pushAll added ∧ added.length = pairs ∧
    ∀ fragment ∈ added, ∃ body, fragment = blockText body ∧ braces body = []

namespace Residue

variable {table : FragmentTable} {closing opened pairs : Nat} {state : Folding}

/-- An opening brace begins a buffer. -/
theorem opening (before : Residue table closing opened pairs state) :
    Residue table closing (opened + 1) pairs (state.step '\x7b') := by
  have step : state.step '\x7b' = ⟨['\x7b'], state.current :: state.outer, state.table⟩ := by
    simp [Folding.step]
  rw [step]
  refine ⟨.inner (List.nil_append _).symm rfl before.buffers, ?_, before.captured⟩
  rw [List.length_cons, before.depth]

/-- A closing brace ends the current buffer, which becomes a block. -/
theorem pair (before : Residue table closing (opened + 1) pairs state) :
    Residue table closing opened (pairs + 1) (state.step '\x7d') := by
  obtain ⟨buffers, depth, added, captured, count, blocks⟩ := before
  obtain ⟨current, outer, held⟩ := state
  cases buffers with
  | outermost => simp at depth
  | @inner _ body around outer begins bare outside =>
      obtain rfl : current = body ++ ['\x7b'] := begins
      have step : Folding.step ⟨body ++ ['\x7b'], around :: outer, held⟩ '\x7d' =
          ⟨(held.kind.format held.size).reverse ++ around, outer,
            held.push (blockText body.reverse)⟩ := by
        simp [Folding.step, FragmentTable.mark, blockText]
      rw [step]
      have bareMarker : braces (held.kind.format held.size).reverse = [] := by
        rw [braces_reverse, braces_format, List.reverse_nil]
      have bareBody : braces body.reverse = [] := by
        rw [braces_reverse, bare, List.reverse_nil]
      refine ⟨outside.collect bareMarker, Nat.succ.inj depth, added ++ [blockText body.reverse], ?_,
        ?_, ?_⟩
      · simp only at captured
        simp [captured, FragmentTable.push, FragmentTable.pushAll]
      · rw [List.length_append, count, List.length_singleton]
      · rw [List.forall_mem_append]
        exact ⟨blocks, List.forall_mem_singleton.mpr ⟨_, rfl, bareBody⟩⟩

/-- A closing brace outside all blocks stays in the text. -/
theorem stray (before : Residue table closing 0 pairs state) :
    Residue table (closing + 1) 0 pairs (state.step '\x7d') := by
  obtain ⟨buffers, depth, captured⟩ := before
  obtain ⟨current, outer, held⟩ := state
  cases buffers with
  | inner => simp at depth
  | outermost strays =>
      have step : Folding.step ⟨current, [], held⟩ '\x7d' = ⟨'\x7d' :: current, [], held⟩ := by
        simp [Folding.step]
      rw [step]
      refine ⟨.outermost ?_, rfl, captured⟩
      rw [List.replicate_succ, ← strays]
      rfl

/-- Any other character goes into the current buffer. -/
theorem other (before : Residue table closing opened pairs state) {c : Char}
    (plain : isBrace c = false) : Residue table closing opened pairs (state.step c) := by
  have bare : braces [c] = [] := by simp [braces, plain]
  obtain ⟨noOpening, noClosing⟩ := braces_eq_nil_iff.mp bare
  have step : state.step c = { state with current := [c] ++ state.current } :=
    ItemFolding.foldl_step_of_not_mem noOpening noClosing state
  rw [step]
  exact ⟨before.buffers.collect bare, before.depth, before.captured⟩

end Residue

/-- A folding pass holds what the tally counts. -/
theorem Tally.residue {text : Text} {closing opened pairs : Nat}
    (tally : Tally text closing opened pairs) (table : FragmentTable) :
    Residue table closing opened pairs (text.foldl Folding.step { table }) := by
  induction tally with
  | nil => exact ⟨.outermost rfl, rfl, [], by simp [FragmentTable.pushAll], rfl, by simp⟩
  | opening _ before => exact List.foldl_concat .. ▸ before.opening
  | pair _ before => exact List.foldl_concat .. ▸ before.pair
  | stray _ before => exact List.foldl_concat .. ▸ before.stray
  | other plain _ before => exact List.foldl_concat .. ▸ before.other plain

/-! ### Balanced braces -/

/-- An opening brace is a step up. -/
theorem bracePath_opening (text : Text) : bracePath (text ++ ['\x7b']) = bracePath text ++ [U] := by
  rw [bracePath, braces_append, List.map_append]
  rfl

/-- A closing brace is a step down. -/
theorem bracePath_closing (text : Text) : bracePath (text ++ ['\x7d']) = bracePath text ++ [D] := by
  rw [bracePath, braces_append, List.map_append]
  rfl

/-- Any other character is no step. -/
theorem bracePath_other (text : Text) {c : Char} (plain : isBrace c = false) :
    bracePath (text ++ [c]) = bracePath text := by
  simp [bracePath, braces, plain]

/-- A path that never goes below its beginning. -/
def StaysUp (path : List DyckStep) : Prop :=
  ∀ length, (path.take length).count D ≤ (path.take length).count U

/-- A path that stays up has no more steps down than up. -/
theorem StaysUp.count_le {path : List DyckStep} (stays : StaysUp path) :
    path.count D ≤ path.count U := by
  simpa using stays path.length

/-- A path stays up exactly when it did before its last step and does at its end. -/
theorem staysUp_concat_iff {path : List DyckStep} {step : DyckStep} :
    StaysUp (path ++ [step]) ↔
      StaysUp path ∧ (path ++ [step]).count D ≤ (path ++ [step]).count U := by
  constructor
  · intro stays
    refine ⟨fun length => ?_, stays.count_le⟩
    have shorter := stays (min length path.length)
    rwa [List.take_append_of_le_length (Nat.min_le_right _ _), ← List.take_take,
      List.take_length] at shorter
  · rintro ⟨stays, whole⟩ length
    rcases Nat.lt_or_ge path.length length with beyond | within
    · rwa [List.take_of_length_le (by rwa [List.length_append, List.length_singleton])]
    · rw [List.take_append_of_le_length within]
      exact stays length

theorem count_concat_U (path : List DyckStep) :
    (path ++ [U]).count U = path.count U + 1 ∧ (path ++ [U]).count D = path.count D := by
  simp

theorem count_concat_D (path : List DyckStep) :
    (path ++ [D]).count U = path.count U ∧ (path ++ [D]).count D = path.count D + 1 := by
  simp

/-- As many braces open as close, but for those that are unmatched. -/
theorem Tally.counts {text : Text} {closing opened pairs : Nat}
    (tally : Tally text closing opened pairs) :
    (bracePath text).count U + closing = (bracePath text).count D + opened := by
  induction tally with
  | nil => rfl
  | opening _ before =>
      rw [bracePath_opening, (count_concat_U _).1, (count_concat_U _).2]
      omega
  | pair _ before =>
      rw [bracePath_closing, (count_concat_D _).1, (count_concat_D _).2]
      omega
  | stray _ before =>
      rw [bracePath_closing, (count_concat_D _).1, (count_concat_D _).2]
      omega
  | other plain _ before => rwa [bracePath_other _ plain]

/-- The path goes below its beginning exactly when a closing brace is unmatched. -/
theorem Tally.staysUp_iff {text : Text} {closing opened pairs : Nat}
    (tally : Tally text closing opened pairs) : StaysUp (bracePath text) ↔ closing = 0 := by
  induction tally with
  | nil => exact iff_of_true (fun length => by simp [bracePath, braces]) rfl
  | opening before inductionHypothesis =>
      have counts := before.counts
      rw [bracePath_opening, staysUp_concat_iff, inductionHypothesis, (count_concat_U _).1,
        (count_concat_U _).2]
      omega
  | pair before inductionHypothesis =>
      have counts := before.counts
      rw [bracePath_closing, staysUp_concat_iff, inductionHypothesis, (count_concat_D _).1,
        (count_concat_D _).2]
      omega
  | stray before inductionHypothesis =>
      have counts := before.counts
      rw [bracePath_closing, staysUp_concat_iff, inductionHypothesis, (count_concat_D _).1,
        (count_concat_D _).2]
      omega
  | other plain _ inductionHypothesis => rwa [bracePath_other _ plain]

/-- Braces are balanced exactly when none is unmatched. -/
theorem Tally.balanced_iff {text : Text} {closing opened pairs : Nat}
    (tally : Tally text closing opened pairs) : Balanced text ↔ closing = 0 ∧ opened = 0 := by
  have counts := tally.counts
  constructor
  · rintro ⟨word, equal⟩
    have staysUp : StaysUp (bracePath text) := equal ▸ word.count_D_le_count_U
    have level : (bracePath text).count U = (bracePath text).count D :=
      equal ▸ word.count_U_eq_count_D
    have noClosing := tally.staysUp_iff.mp staysUp
    exact ⟨noClosing, by omega⟩
  · rintro ⟨noClosing, noOpening⟩
    exact ⟨⟨bracePath text, by omega, tally.staysUp_iff.mpr noClosing⟩, rfl⟩

/-- Folding leaves exactly the braces that stack matching leaves unmatched, the closing ones
before the opening ones, so it leaves none exactly when the braces are balanced. It captures
one fragment for each matched pair: a block with no brace but its own two. -/
theorem residue_foldBlocks (text : Text) (table : FragmentTable) :
    braces (foldBlocks text table).1 =
        List.replicate (unmatchedClosing text).length '\x7d' ++
          List.replicate (unmatchedOpening text).length '\x7b' ∧
      (braces (foldBlocks text table).1 = [] ↔ Balanced text) ∧
      ∃ added, (foldBlocks text table).2 = table.pushAll added ∧
        added.length = (matchedPairs (text.map .char)).length ∧
        ∀ fragment ∈ added, ∃ body, fragment = blockText body ∧ braces body = [] := by
  obtain ⟨stack, tally⟩ := tally_of_matching text
  have depth : (unmatchedOpening text).length = (matching text).opened.length := by
    rw [stack, List.length_reverse]
  rw [← depth] at tally
  have residue := tally.residue table
  have left : braces (foldBlocks text table).1 =
      List.replicate (unmatchedClosing text).length '\x7d' ++
        List.replicate (unmatchedOpening text).length '\x7b' := by
    rw [foldBlocks, Folding.finish, braces_reverse, residue.buffers.braces_finish, residue.depth]
    simp
  refine ⟨left, ?_, residue.captured⟩
  rw [left, tally.balanced_iff]
  simp

end HeaderBook.Source
