import Mathlib.Algebra.GroupWithZero.Nat
import Mathlib.Data.List.Infix
import HeaderBook.Proofs.Restoration

/-!
# How markers are used

In the document of a source without marker-shaped text every ampersand of a
working text opens a marker of an entry that exists; each fragment has exactly one
marker over the folded text and all blocks together; literals and runs hold no
marker but that of the ampersand; and a block holds only blocks folded before it.
Restoring relies on these facts without checking them.

Occurrences are counted on the texts themselves, suffix by suffix. They are the
marker segments of the items behind the texts, so that `perm_segments` gives the
count.
-/

namespace HeaderBook

namespace Marker

/-- A well-formed marker stands somewhere in a text. -/
def OccursIn (marker : Marker) (text : Text) : Prop :=
  marker.Valid ∧ ∃ before after, text = before ++ marker.text ++ after

/-- The number of places at which a marker of the given kind and index begins. -/
def useCount (kind : MarkerKind) (index : Nat) (text : Text) : Nat :=
  text.tails.countP fun suffix =>
    (Marker.read? suffix).any fun found => found.1.kind = kind && found.1.index = index

end Marker

namespace Segment

/-- A marker of the given kind and index. -/
def isMarker (kind : MarkerKind) (index : Nat) : Segment → Bool
  | .plain _ => false
  | .marker found => found.kind = kind && found.index = index

/-- A marker is counted for its own kind and number only. -/
theorem isMarker_ofIndex (kind own : MarkerKind) (index number : Nat) :
    isMarker kind index (.marker (.ofIndex own number)) = (own = kind && number = index) := by
  rw [isMarker, Marker.kind_ofIndex, Marker.index_ofIndex]

/-- A marker that stands in a text of segments is one of them. -/
theorem mem_of_occursIn {segments : List Segment} (valid : ∀ segment ∈ segments, segment.Valid)
    {marker : Marker} (occurs : marker.OccursIn (segments.flatMap Segment.text)) :
    .marker marker ∈ segments := by
  obtain ⟨validMarker, before, after, whole⟩ := occurs
  obtain ⟨body, opens, _⟩ := validMarker.exists_text_eq
  rw [opens, List.append_assoc, List.cons_append] at whole
  obtain ⟨left, right, rfl, _, rightText⟩ := exists_split_of_ampersand valid whole
  have validRight : ∀ segment ∈ right, segment.Valid :=
    fun segment member => valid segment (List.mem_append_right left member)
  have cut := ofText_flatMap_append validRight []
  have marked := ofText_marker validMarker after
  rw [opens, List.cons_append, ← rightText] at marked
  rw [List.append_nil, ofText_nil, List.append_nil, marked] at cut
  rw [← cut]
  exact List.mem_append_right left List.mem_cons_self

/-- Characters other than ampersands begin no marker. -/
theorem useCount_append_of_not_mem {kind : MarkerKind} {index : Nat} {text : Text}
    (free : '&' ∉ text) (rest : Text) :
    Marker.useCount kind index (text ++ rest) = Marker.useCount kind index rest := by
  induction text with
  | nil => rfl
  | cons c text inductionHypothesis =>
      rw [List.mem_cons, not_or] at free
      have none := Marker.read?_eq_none_of_ne (Ne.symm free.1) (text ++ rest)
      rw [← inductionHypothesis free.2, Marker.useCount, List.cons_append, List.tails_cons,
        List.countP_cons, none]
      rfl

/-- The occurrences of a marker are the segments that are that marker. -/
theorem useCount_flatMap {segments : List Segment} (valid : ∀ segment ∈ segments, segment.Valid)
    (kind : MarkerKind) (index : Nat) :
    Marker.useCount kind index (segments.flatMap Segment.text) =
      segments.countP (isMarker kind index) := by
  induction segments with
  | nil => rfl
  | cons segment segments inductionHypothesis =>
      have tail := inductionHypothesis fun other member => valid other (List.mem_cons_of_mem _ member)
      have head := valid segment List.mem_cons_self
      rw [List.flatMap_cons, List.countP_cons, ← tail]
      cases segment with
      | plain c =>
          have free : '&' ∉ [c] := by simpa using Ne.symm head
          exact useCount_append_of_not_mem free _
      | marker found =>
          obtain ⟨body, opens, free⟩ := Marker.Valid.exists_text_eq head
          have read := Marker.read?_text_append head (segments.flatMap Segment.text)
          have rest : Marker.useCount kind index (body ++ segments.flatMap Segment.text) = _ :=
            useCount_append_of_not_mem free _
          rw [opens, List.cons_append] at read
          rw [← rest, Segment.text, opens, List.cons_append, Marker.useCount, List.tails_cons,
            List.countP_cons, read]
          rfl

end Segment

namespace Source

/-! ### Markers in fragments -/

/-- The marker of the ampersand. -/
def ampersandMarker : Marker :=
  ⟨.generic, ['0']⟩

theorem valid_ampersandMarker : ampersandMarker.Valid :=
  Marker.valid_zero

/-- A text whose only markers are those of ampersands. -/
def OnlyAmpersands (text : Text) : Prop :=
  Clean text ∧ ∀ marker, .marker marker ∈ Segment.ofText text → marker = ampersandMarker

theorem OnlyAmpersands.nil : OnlyAmpersands [] :=
  ⟨.nil, by simp⟩

/-- Texts whose only markers stand for ampersands may be joined. -/
theorem OnlyAmpersands.append {left right : Text} (first : OnlyAmpersands left)
    (second : OnlyAmpersands right) : OnlyAmpersands (left ++ right) := by
  refine ⟨first.1.append second.1, fun marker member => ?_⟩
  rw [first.1.ofText_append] at member
  rcases List.mem_append.mp member with inLeft | inRight
  · exact first.2 marker inLeft
  · exact second.2 marker inRight

/-- A character other than an ampersand holds no marker. -/
theorem OnlyAmpersands.plain {c : Char} (ordinary : c ≠ '&') : OnlyAmpersands [c] := by
  refine ⟨.plain ordinary, fun marker member => ?_⟩
  rw [Segment.ofText_plain ordinary, Segment.ofText_nil] at member
  simp at member

/-- The marker of an ampersand is one. -/
theorem OnlyAmpersands.marker : OnlyAmpersands ampersandMarker.text := by
  refine ⟨.marker valid_ampersandMarker, fun marker member => ?_⟩
  have cut := Segment.ofText_marker valid_ampersandMarker []
  rw [List.append_nil, Segment.ofText_nil] at cut
  rw [cut] at member
  simpa using member

/-- Any marker in such a text is the one of an ampersand. -/
theorem OnlyAmpersands.eq_of_occursIn {text : Text} (only : OnlyAmpersands text) {marker : Marker}
    (occurs : marker.OccursIn text) : marker = ampersandMarker := by
  rw [← Segment.flatMap_text_ofText text] at occurs
  exact only.2 marker (Segment.mem_of_occursIn only.1 occurs)

/-- Shielding a text without marker-shaped text writes no other marker. -/
theorem Unmarked.onlyAmpersands {text : Text} (unmarked : Unmarked text) :
    OnlyAmpersands (shieldAmpersands text) := by
  induction text using ampersand_induction with
  | nil => exact .nil
  | plain c rest ordinary inductionHypothesis =>
      rw [shieldAmpersands_cons_of_ne ordinary]
      have tail := inductionHypothesis fun before digits shaped =>
        unmarked _ digits (shaped.append_left [c])
      exact (OnlyAmpersands.plain ordinary).append tail
  | marker digits after valid inductionHypothesis =>
      exact absurd ⟨valid, after, rfl⟩ (unmarked [] digits)
  | bare rest closed inductionHypothesis =>
      rw [shieldAmpersands_of_not_opens closed]
      have tail := inductionHypothesis fun before digits shaped =>
        unmarked _ digits (shaped.append_left ['&'])
      exact OnlyAmpersands.marker.append tail

/-- The only markers in shielded comment lines stand for ampersands. -/
theorem onlyAmpersands_flatten {lines : List Text} (unmarked : ∀ line ∈ lines, Unmarked line) :
    OnlyAmpersands (lines.map shieldAmpersands).flatten := by
  induction lines with
  | nil => exact .nil
  | cons line lines inductionHypothesis =>
      rw [List.map_cons, List.flatten_cons]
      have first := (unmarked line List.mem_cons_self).onlyAmpersands
      exact first.append (inductionHypothesis fun other member =>
        unmarked other (List.mem_cons_of_mem _ member))

/-! ### Counting markers -/

theorem Token.filterMap_literal?_cons (text : Text) (tokens : List Token) :
    ((.literal text :: tokens).filterMap literal?).length = (tokens.filterMap literal?).length + 1 :=
  rfl

theorem Token.filterMap_comment?_cons (lines : List Text) (tokens : List Token) :
    ((.comment lines :: tokens).filterMap comment?).length = (tokens.filterMap comment?).length + 1 :=
  rfl

/-- The number of markers that stand for the `index`-th fragment among the items of
a captured text. -/
def expectedCount (generic doc : Nat) (tokens : List Token) (index : Nat) : MarkerKind → Nat
  | .generic => (List.range' generic (tokens.filterMap Token.literal?).length).count index
  | .docComment => (List.range' doc (tokens.filterMap Token.comment?).length).count index
  | .block => 0

/-- The items of a captured text hold one marker for each literal and each run. -/
theorem countP_ofTokens {kind : MarkerKind} {index generic doc : Nat} {tokens : List Token}
    (unmarked : ∀ digits, .marker digits ∉ tokens) (nonzero : kind = .generic → 1 ≤ index) :
    ((Item.ofTokens generic doc tokens).map Item.segment).countP (Segment.isMarker kind index) =
      expectedCount generic doc tokens index kind := by
  induction tokens generalizing generic doc with
  | nil =>
      cases kind <;> rfl
  | cons token tokens inductionHypothesis =>
      have unmarkedTail : ∀ digits, .marker digits ∉ tokens :=
        fun digits member => unmarked digits (List.mem_cons_of_mem _ member)
      cases token with
      | char c =>
          have nothing : Segment.isMarker kind index (Item.charSegment c) = false := by
            by_cases ampersand : c = '&'
            · rw [Item.charSegment, if_pos ampersand, Segment.isMarker_ofIndex]
              by_contra both
              simp only [Bool.not_eq_false, Bool.and_eq_true, decide_eq_true_eq] at both
              have zero : 0 = index := both.2
              have positive := nonzero both.1.symm
              omega
            · rw [Item.charSegment, if_neg ampersand]
              rfl
          rw [Item.ofTokens, List.map_cons, List.countP_cons, inductionHypothesis unmarkedTail,
            nothing]
          cases kind <;> rfl
      | marker digits => exact absurd List.mem_cons_self (unmarked digits)
      | literal text =>
          rw [Item.ofTokens, List.map_cons, List.countP_cons, inductionHypothesis unmarkedTail,
            Segment.isMarker_ofIndex]
          cases kind with
          | generic =>
              rw [expectedCount, expectedCount, Token.filterMap_literal?_cons,
                List.range'_succ, List.count_cons]
              simp
          | docComment => rfl
          | block => rfl
      | comment lines =>
          rw [Item.ofTokens, List.map_cons, List.countP_cons, inductionHypothesis unmarkedTail,
            Segment.isMarker_ofIndex]
          cases kind with
          | generic => rfl
          | docComment =>
              rw [expectedCount, expectedCount, Token.filterMap_comment?_cons,
                List.range'_succ, List.count_cons]
              simp
          | block => rfl

/-- Each folded block has one marker. -/
theorem countP_blockSegment (kind : MarkerKind) (index count : Nat) :
    ((List.range count).map ItemFolding.blockSegment).countP (Segment.isMarker kind index) =
      if kind = .block then (List.range count).count index else 0 := by
  rw [List.countP_map]
  split
  next same =>
    subst same
    rw [List.count]
    congr 1
    funext number
    exact Segment.isMarker_ofIndex .block .block index number
  next different =>
    rw [List.countP_eq_zero]
    intro number _
    rw [Function.comp_apply, ItemFolding.blockSegment, Segment.isMarker_ofIndex]
    simp [Ne.symm different]

/-! ### Where the items of a document come from -/

section

variable {source : Text} (unmarked : Unmarked source)

include unmarked

/-- A marker of an item refers to an entry of its table. -/
theorem index_lt_of_origin {item : Item} {limit : Nat} {marker : Marker}
    (origin : ItemFolding.Origin (items source) (folding source).blocks limit item)
    (segment : item.segment = .marker marker) :
    (marker.kind = .generic ∧ marker.index < (literals source).length + 1) ∨
      (marker.kind = .docComment ∧ marker.index < (runs source).length) ∨
      (marker.kind = .block ∧ marker.index < limit ∧
        marker.index < (folding source).blocks.length) := by
  rcases origin with leaf | ⟨index, body, below, found, rfl⟩
  · cases Item.leaf_of_mem_ofTokens leaf with
    | @char c _ =>
        by_cases ampersand : c = '&'
        · rw [Item.charSegment, if_pos ampersand] at segment
          obtain rfl := Segment.marker.inj segment
          exact .inl ⟨rfl, by rw [Marker.index_ofIndex]; exact Nat.succ_pos _⟩
        · simp [Item.charSegment, ampersand] at segment
    | marker member => exact absurd member (unmarked.marker_not_mem _)
    | literal found =>
        obtain rfl := Segment.marker.inj segment
        have inside := (List.getElem?_eq_some_iff.mp found).1
        refine .inl ⟨rfl, ?_⟩
        rw [Marker.index_ofIndex, literals]
        omega
    | comment found =>
        obtain rfl := Segment.marker.inj segment
        have inside := (List.getElem?_eq_some_iff.mp found).1
        refine .inr (.inl ⟨rfl, ?_⟩)
        rw [Marker.index_ofIndex, runs]
        omega
  · obtain rfl := Segment.marker.inj segment
    have inside := (List.getElem?_eq_some_iff.mp found).1
    rw [Marker.index_ofIndex]
    exact .inr (.inr ⟨rfl, below, inside⟩)

/-- The markers of all items together: each entry of a table has one. -/
theorem countP_folded {kind : MarkerKind} {index : Nat} (nonzero : kind = .generic → 1 ≤ index) :
    (((folding source).finish ++ (folding source).blocks.flatten).map Item.segment).countP
        (Segment.isMarker kind index) =
      expectedCount 1 0 (Token.ofText source) index kind +
        if kind = .block then (List.range (folding source).blocks.length).count index else 0 := by
  have perm := ItemFolding.perm_segments (items source)
  rw [folding, perm.countP_eq, List.countP_append, items,
    countP_ofTokens unmarked.marker_not_mem nonzero, countP_blockSegment]

end

end Source

namespace Document

open Source Text

/-- The texts in which fragments are referred to: the folded text and the blocks. -/
def workingTexts (document : Document) : List Text :=
  document.text :: document.blocks

/-- The number of fragments of a kind. -/
def tableSize (document : Document) : MarkerKind → Nat
  | .generic => document.generic.length
  | .docComment => document.docComments.length
  | .block => document.blocks.length

/-- Markers are used linearly and point backwards. -/
structure MarkersLinear (document : Document) : Prop where
  /-- Every ampersand of a working text begins a marker of an entry. -/
  opened : ∀ text ∈ document.workingTexts, ∀ before after, text = before ++ '&' :: after →
    ∃ (marker : Marker) (rest : Text), marker.Valid ∧ '&' :: after = marker.text ++ rest ∧
      marker.index < document.tableSize marker.kind
  /-- Every entry but the ampersand has one marker over all working texts. -/
  once : ∀ kind index, index < document.tableSize kind → (kind = .generic → 1 ≤ index) →
    (document.workingTexts.map (Marker.useCount kind index)).sum = 1
  /-- Literals and runs hold no marker but that of the ampersand. -/
  flat : ∀ text ∈ document.generic.drop 1 ++ document.docComments, ∀ marker : Marker,
    marker.OccursIn text → marker = ampersandMarker
  /-- A block holds only blocks with a lower index. -/
  earlier : ∀ index text, document.blocks[index]? = some text → ∀ marker : Marker,
    marker.OccursIn text → marker.kind = .block → marker.index < index

section

variable {path : CodeText} {source : Text} {declarations : List Declaration}

/-- Every working text is the text of items with a known origin. -/
theorem exists_items_of_mem_workingTexts {text : Text}
    (member : text ∈ (withDeclarations path source declarations).workingTexts) :
    ∃ folded : List Item, text = folded.flatMap Item.text ∧ ∀ item ∈ folded, ∃ limit,
      ItemFolding.Origin (items source) (folding source).blocks limit item := by
  rcases List.mem_cons.mp member with rfl | block
  · exact ⟨(folding source).finish, rfl, fun item inside => ⟨_, origin_of_mem_finish inside⟩⟩
  · obtain ⟨body, inside, rfl⟩ := List.mem_map.mp block
    obtain ⟨index, found⟩ := List.mem_iff_getElem?.mp inside
    exact ⟨body, rfl, fun item inBody => ⟨_, origin_of_mem_block found inBody⟩⟩

/-- Every segment of the folded items is valid. -/
theorem valid_segments {folded : List Item} (origin : ∀ item ∈ folded, ∃ limit,
      ItemFolding.Origin (items source) (folding source).blocks limit item) :
    ∀ segment ∈ folded.map Item.segment, segment.Valid := by
  intro segment member
  obtain ⟨item, inside, rfl⟩ := List.mem_map.mp member
  obtain ⟨_, known⟩ := origin item inside
  exact known.valid

/-- A marker that stands in the text of items is the marker of one of them. -/
theorem exists_item_of_occursIn {folded : List Item} (origin : ∀ item ∈ folded, ∃ limit,
      ItemFolding.Origin (items source) (folding source).blocks limit item)
    {marker : Marker} (occurs : marker.OccursIn (folded.flatMap Item.text)) :
    ∃ item ∈ folded, item.segment = .marker marker := by
  rw [flatMap_text_eq] at occurs
  exact List.mem_map.mp (Segment.mem_of_occursIn (valid_segments origin) occurs)

/-- The markers of all working texts are the markers of all items. -/
theorem sum_useCount (path : CodeText) (source : Text) (declarations : List Declaration)
    (kind : MarkerKind) (index : Nat) :
    ((withDeclarations path source declarations).workingTexts.map
        (Marker.useCount kind index)).sum =
      (((folding source).finish ++ (folding source).blocks.flatten).map Item.segment).countP
        (Segment.isMarker kind index) := by
  have count : ∀ folded : List Item, (∀ item ∈ folded, ∃ limit,
      ItemFolding.Origin (items source) (folding source).blocks limit item) →
      Marker.useCount kind index (folded.flatMap Item.text) =
        (folded.map Item.segment).countP (Segment.isMarker kind index) := by
    intro folded origin
    rw [flatMap_text_eq]
    exact Segment.useCount_flatMap (valid_segments origin) kind index
  have text := count (folding source).finish fun item inside => ⟨_, origin_of_mem_finish inside⟩
  have blocks : ((folding source).blocks.map (List.flatMap Item.text)).map
      (Marker.useCount kind index) = ((folding source).blocks.map (List.map Item.segment)).map
        (List.countP (Segment.isMarker kind index)) := by
    rw [List.map_map, List.map_map]
    apply List.map_congr_left
    intro body member
    obtain ⟨position, found⟩ := List.mem_iff_getElem?.mp member
    exact count body fun item inside => ⟨_, origin_of_mem_block found inside⟩
  rw [workingTexts, List.map_cons, List.sum_cons, List.map_append, List.countP_append,
    List.map_flatten, List.countP_flatten]
  exact congrArg₂ (· + ·) text (congrArg List.sum blocks)

variable (unmarked : Unmarked source)

include unmarked

/-- The number of a marker that an item carries is one of a stored fragment. -/
theorem index_lt_tableSize {item : Item} {limit : Nat} {marker : Marker}
    (origin : ItemFolding.Origin (items source) (folding source).blocks limit item)
    (segment : item.segment = .marker marker) :
    marker.index < (withDeclarations path source declarations).tableSize marker.kind := by
  rcases index_lt_of_origin unmarked origin segment with
    ⟨kind, bound⟩ | ⟨kind, bound⟩ | ⟨kind, _, bound⟩
  · rw [kind]
    simpa [tableSize, generic, withDeclarations] using bound
  · rw [kind]
    simpa [tableSize, withDeclarations] using bound
  · rw [kind]
    simpa [tableSize, withDeclarations] using bound

/-- Every ampersand of the working texts opens a marker with an entry in its table. -/
theorem opened_withDeclarations {text before after : Text}
    (member : text ∈ (withDeclarations path source declarations).workingTexts)
    (split : text = before ++ '&' :: after) :
    ∃ (marker : Marker) (rest : Text), marker.Valid ∧ '&' :: after = marker.text ++ rest ∧
      marker.index < (withDeclarations path source declarations).tableSize marker.kind := by
  obtain ⟨folded, rfl, origin⟩ := exists_items_of_mem_workingTexts member
  have valid := valid_segments origin
  rw [flatMap_text_eq] at split
  obtain ⟨left, right, segments, _, rightText⟩ := Segment.exists_split_of_ampersand valid split
  cases right with
  | nil => simp at rightText
  | cons segment right =>
      have inside : segment ∈ folded.map Item.segment := by
        rw [segments]
        exact List.mem_append_right left List.mem_cons_self
      rw [List.flatMap_cons] at rightText
      cases segment with
      | plain c => exact absurd (List.cons.inj rightText).1 (valid _ inside)
      | marker marker =>
          obtain ⟨item, member', shown⟩ := List.mem_map.mp inside
          obtain ⟨_, known⟩ := origin item member'
          exact ⟨marker, right.flatMap Segment.text, valid _ inside, rightText.symm,
            index_lt_tableSize unmarked known shown⟩

/-- Every entry has its marker in the working texts exactly once. -/
theorem once_withDeclarations {kind : MarkerKind} {index : Nat}
    (bound : index < (withDeclarations path source declarations).tableSize kind)
    (nonzero : kind = .generic → 1 ≤ index) :
    ((withDeclarations path source declarations).workingTexts.map
      (Marker.useCount kind index)).sum = 1 := by
  rw [sum_useCount, countP_folded unmarked nonzero]
  cases kind with
  | generic =>
      have positive := nonzero rfl
      have size : index < (Source.literals source).length + 1 := by
        simpa [tableSize, generic, withDeclarations] using bound
      rw [expectedCount, if_neg (by simp), List.count_range_1', if_pos]
      exact ⟨positive, by rw [Source.literals] at size; omega⟩
  | docComment =>
      have size : index < (runs source).length := by
        simpa [tableSize, withDeclarations] using bound
      rw [expectedCount, if_neg (by simp), List.count_range_1', if_pos]
      exact ⟨Nat.zero_le index, by rw [runs] at size; omega⟩
  | block =>
      have size : index < (folding source).blocks.length := by
        simpa [tableSize, withDeclarations] using bound
      rw [expectedCount, if_pos rfl, List.count_range, if_pos size]

/-- Captured literals and comments hold no markers but those of ampersands. -/
theorem flat_withDeclarations {text : Text}
    (member : text ∈ (withDeclarations path source declarations).generic.drop 1 ++
      (withDeclarations path source declarations).docComments)
    {marker : Marker} (occurs : marker.OccursIn text) : marker = ampersandMarker := by
  rcases List.mem_append.mp member with literal | run
  · obtain ⟨body, inside, rfl⟩ := List.mem_map.mp literal
    obtain ⟨position, found⟩ := List.mem_iff_getElem?.mp inside
    obtain ⟨front, back, whole⟩ :=
      Token.exists_append_of_mem (Token.literal_mem_ofText found)
    rw [whole] at unmarked
    exact unmarked.of_append.onlyAmpersands.eq_of_occursIn occurs
  · obtain ⟨lines, inside, rfl⟩ := List.mem_map.mp run
    obtain ⟨position, found⟩ := List.mem_iff_getElem?.mp inside
    have each : ∀ line ∈ lines, Unmarked line := by
      intro line inLines
      obtain ⟨front, back, whole⟩ :=
        Token.exists_append_of_mem_lines (Token.comment_mem_ofText found) inLines
      rw [whole] at unmarked
      exact unmarked.of_append
    exact (onlyAmpersands_flatten each).eq_of_occursIn occurs

/-- A block holds only markers of blocks folded before it. -/
theorem earlier_withDeclarations {index : Nat} {text : Text}
    (found : (withDeclarations path source declarations).blocks[index]? = some text)
    {marker : Marker} (occurs : marker.OccursIn text) (isBlock : marker.kind = .block) :
    marker.index < index := by
  have known : ((folding source).blocks.map (List.flatMap Item.text))[index]? = some text := found
  rw [List.getElem?_map] at known
  obtain ⟨body, inside, rfl⟩ := Option.map_eq_some_iff.mp known
  obtain ⟨item, member, segment⟩ := exists_item_of_occursIn
    (fun item member => ⟨_, origin_of_mem_block inside member⟩) occurs
  rcases index_lt_of_origin unmarked (origin_of_mem_block inside member) segment with
    ⟨kind, _⟩ | ⟨kind, _⟩ | ⟨_, below, _⟩
  · simp [kind] at isBlock
  · simp [kind] at isBlock
  · exact below

/-- The markers of a document made from an unmarked source are linear. -/
theorem markersLinear_withDeclarations :
    (withDeclarations path source declarations).MarkersLinear where
  opened _ member _ _ split := opened_withDeclarations unmarked member split
  once _ _ bound nonzero := once_withDeclarations unmarked bound nonzero
  flat _ member _ occurs := flat_withDeclarations unmarked member occurs
  earlier _ _ found _ occurs isBlock := earlier_withDeclarations unmarked found occurs isBlock

end

/-- A document built from a source without marker-shaped text uses its markers
linearly; a source shorter than `numberLimit` has such a document. -/
theorem markersLinear_build (path : CodeText) (source : Text) (unmarked : Unmarked source) :
    (source.length < numberLimit → ∃ document, build path source = .ok document) ∧
      ∀ document, build path source = .ok document → document.MarkersLinear := by
  refine ⟨fun short => ⟨_, build_eq_ok path short⟩, fun document built => ?_⟩
  rw [build_eq] at built
  cases declarations : Declaration.ofFolded ((folding source).finish.flatMap Item.text) with
  | error failure =>
      rw [declarations] at built
      exact absurd built nofun
  | ok found =>
      rw [declarations] at built
      obtain rfl := Except.ok.inj built
      exact markersLinear_withDeclarations unmarked

/-- A documented block with a quoted ampersand, and a bare ampersand after it. -/
def quotedAmpersand : Text :=
  "// a\nf \x7b\"&\"\x7d&;\n".toList

/-- A source with a comment, a block, a literal and ampersands inside and outside it. -/
theorem markersLinear_build_quotedAmpersand :
    Unmarked quotedAmpersand ∧
      ∃ document, build [] quotedAmpersand = .ok document ∧
        document.text = "&DOC0:f &BLOCK0;&0.;\n".toList ∧
        document.literals = ["\"&0.\"".toList] ∧ document.docComments = ["// a\n".toList] ∧
        document.blocks = ["\x7b&1.\x7d".toList] ∧ document.MarkersLinear := by
  have unmarked : Unmarked quotedAmpersand := by
    rintro before digits ⟨_, after, equal⟩
    have dot : '.' ∈ quotedAmpersand := by
      rw [equal]
      simp
    exact absurd dot (by decide)
  have built : build [] quotedAmpersand = .ok {
      path := []
      text := "&DOC0:f &BLOCK0;&0.;\n".toList
      literals := ["\"&0.\"".toList]
      docComments := ["// a\n".toList]
      blocks := ["\x7b&1.\x7d".toList]
      declarations := [⟨.functionLike, "&DOC0:f &BLOCK0;".toList, 0⟩] } := by
    decide +kernel
  obtain ⟨_, linear⟩ := markersLinear_build [] quotedAmpersand unmarked
  exact ⟨unmarked, _, built, rfl, rfl, rfl, rfl, linear _ built⟩

end Document

end HeaderBook
