import HeaderBook.Proofs.BoundedExpansion
import HeaderBook.Proofs.MarkerUse

/-!
# When restoring succeeds

The only thing that can go wrong in restoring is a number with too many digits. A
text is legible when the numbers of all its markers can be read. Shielding leaves
the generic markers of a text as the only ones, so a shielded text is legible
exactly when no marker-shaped number of the source is too long.

Restoring a legible text succeeds when every fragment is legible. Conversely, when
the folded text of a source is restored, every fragment is reached through some
marker: `legible_of_restoreBelow` follows the items that cover the source, block
by block, and finds every token legible.
-/

namespace HeaderBook

open Text Source

/-! ### Legible texts -/

/-- The number of every marker of a text can be read. -/
def Legible (text : Text) : Prop :=
  ∀ marker, .marker marker ∈ Segment.ofText text → marker.digits.length ≤ digitLimit

/-- A number is read if it has no more digits than the limit. -/
theorem exists_readNumber_eq_ok_iff {digits : Text} :
    (∃ index, readNumber digits = .ok index) ↔ digits.length ≤ digitLimit := by
  unfold readNumber
  split
  next long =>
    refine iff_of_false ?_ (Nat.not_le_of_lt long)
    rintro ⟨_, equal⟩
    cases equal
  next short => exact iff_of_true ⟨_, rfl⟩ (Nat.le_of_not_lt short)

/-- A number below the limit is written with few digits. -/
theorem length_decimal_le_digitLimit {index : Nat} (below : index < numberLimit) :
    (decimal index).length ≤ digitLimit :=
  exists_readNumber_eq_ok_iff.mp ⟨index, readNumber_decimal below⟩

/-- A text is legible when its parts are, if no marker runs across. -/
theorem legible_append {left right : Text} (clean : Clean left) :
    Legible (left ++ right) ↔ Legible left ∧ Legible right := by
  unfold Legible
  rw [clean.ofText_append]
  constructor
  · intro legible
    exact ⟨fun marker member => legible marker (List.mem_append_left _ member),
      fun marker member => legible marker (List.mem_append_right _ member)⟩
  · rintro ⟨inLeft, inRight⟩ marker member
    exact (List.mem_append.mp member).elim (inLeft marker) (inRight marker)

/-- The empty text is legible. -/
theorem legible_nil : Legible [] := by
  intro marker member
  rw [Segment.ofText_nil] at member
  cases member

/-- Joined parts are legible when each of them is. -/
theorem legible_flatMap {α : Type} {parts : List α} {f : α → Text}
    (clean : ∀ part ∈ parts, Clean (f part)) :
    Legible (parts.flatMap f) ↔ ∀ part ∈ parts, Legible (f part) := by
  induction parts with
  | nil => exact iff_of_true legible_nil fun _ member => absurd member List.not_mem_nil
  | cons part parts inductionHypothesis =>
      rw [List.flatMap_cons, legible_append (clean part List.mem_cons_self),
        inductionHypothesis fun other member => clean other (List.mem_cons_of_mem _ member),
        List.forall_mem_cons]

/-- A character that opens no marker is legible. -/
theorem legible_plain {c : Char} (plain : c ≠ '&') : Legible [c] := by
  intro marker member
  rw [Segment.ofText_plain plain, Segment.ofText_nil, List.mem_singleton] at member
  cases member

/-- A marker is legible if its number is not too long. -/
theorem legible_marker {marker : Marker} (valid : marker.Valid) :
    Legible marker.text ↔ marker.digits.length ≤ digitLimit := by
  have cut := Segment.ofText_marker valid []
  rw [List.append_nil, Segment.ofText_nil] at cut
  unfold Legible
  rw [cut]
  constructor
  · intro legible
    exact legible marker (List.mem_singleton_self _)
  · intro short other member
    rw [Segment.marker.inj (List.mem_singleton.mp member)]
    exact short

/-- The marker of the ampersand is legible. -/
theorem legible_ampersandMarker : Legible (⟨.generic, ['0']⟩ : Marker).text :=
  (legible_marker Marker.valid_zero).mpr (by decide)

/-- A marker of a text stands in it. -/
theorem Segment.occursIn_of_mem {text : Text} {marker : Marker}
    (member : .marker marker ∈ Segment.ofText text) : marker.OccursIn text := by
  fun_induction Segment.ofText text with
  | case1 => cases member
  | case2 c rest found after read inductionHypothesis =>
      rcases List.mem_cons.mp member with equal | later
      · obtain rfl := Segment.marker.inj equal
        obtain ⟨kind, _, mapped⟩ := List.exists_of_findSome?_eq_some read
        obtain ⟨⟨digits, rest'⟩, readKind, same⟩ := Option.map_eq_some_iff.mp mapped
        obtain ⟨rfl, rfl⟩ := Prod.mk.inj same
        obtain ⟨valid, whole⟩ := Marker.kind_read?_eq_some_iff.mp readKind
        exact ⟨valid, [], _, whole⟩
      · obtain ⟨valid, before, behind, rfl⟩ := inductionHypothesis later
        refine ⟨valid, found.text ++ before, behind, ?_⟩
        rw [Marker.text_of_read? read]
        simp only [List.append_assoc]
  | case3 c rest _ inductionHypothesis =>
      rcases List.mem_cons.mp member with equal | later
      · cases equal
      · obtain ⟨valid, before, behind, rfl⟩ := inductionHypothesis later
        exact ⟨valid, c :: before, behind, rfl⟩

/-! ### Legible sources -/

/-- A shielded text is legible exactly when no marker-shaped number is too long. -/
theorem legible_shieldAmpersands (text : Text) :
    Legible (shieldAmpersands text) ↔ Readable text := by
  induction text using ampersand_induction with
  | nil =>
      rw [shieldAmpersands_nil]
      refine iff_of_true legible_nil ?_
      rintro before digits ⟨_, after, equal⟩
      simp at equal
  | plain c rest ordinary inductionHypothesis =>
      rw [shieldAmpersands_cons_of_ne ordinary, ← List.singleton_append,
        legible_append (.plain ordinary), and_iff_right (legible_plain ordinary),
        inductionHypothesis]
      constructor
      · intro readable before digits shaped
        have free : '&' ∉ [c] := by simpa using Ne.symm ordinary
        obtain ⟨before', _, inside⟩ := MarkerShaped.of_append free shaped
        exact readable before' digits inside
      · intro readable before digits shaped
        exact readable _ digits (shaped.append_left [c])
  | marker digits after valid inductionHypothesis =>
      rw [shieldAmpersands_marker valid, legible_append (.marker valid), legible_marker valid,
        inductionHypothesis]
      constructor
      · rintro ⟨short, readable⟩ before digits' shaped
        rcases shaped.of_marker valid with ⟨_, rfl⟩ | ⟨before', inside⟩
        · exact short
        · exact readable before' digits' inside
      · intro readable
        refine ⟨readable [] digits ⟨valid, after, rfl⟩, fun before digits' shaped => ?_⟩
        have whole := shaped.append_left ('&' :: (digits ++ ['.']))
        rw [List.cons_append, List.append_assoc] at whole
        exact readable _ digits' whole
  | bare rest closed inductionHypothesis =>
      have marker : '&' :: '0' :: '.' :: shieldAmpersands rest =
          (⟨.generic, ['0']⟩ : Marker).text ++ shieldAmpersands rest := rfl
      rw [shieldAmpersands_of_not_opens closed, marker, legible_append (.marker Marker.valid_zero),
        and_iff_right legible_ampersandMarker, inductionHypothesis]
      constructor
      · intro readable before digits shaped
        rcases shaped.of_ampersand with ⟨_, after, rfl⟩ | ⟨before', _, inside⟩
        · exact absurd closed (by rw [opensGeneric_iff.mpr ⟨digits, after, shaped.1, rfl⟩]; simp)
        · exact readable before' digits inside
      · intro readable before digits shaped
        exact readable _ digits (shaped.append_left ['&'])

/-- No marker begins in a shielded token and ends behind it. -/
theorem clean_shield {source : Text} {token : Token} (member : token ∈ Token.ofText source) :
    Clean token.shield.text := by
  cases token with
  | char c =>
      by_cases ampersand : c = '&'
      · rw [Token.shield, if_pos ampersand]
        exact .marker Marker.valid_zero
      · rw [Token.shield, if_neg ampersand]
        exact .plain ampersand
  | marker digits => exact .marker (Token.valid_of_marker_mem member)
  | literal text => exact clean_shieldAmpersands text
  | comment lines =>
      rw [Token.shield, Token.text]
      clear member
      induction lines with
      | nil => exact .nil
      | cons line lines inductionHypothesis =>
          rw [List.map_cons, List.flatten_cons]
          exact (clean_shieldAmpersands line).append inductionHypothesis

/-- The numbers of a source are read token by token. -/
theorem readable_iff_tokens (source : Text) :
    Readable source ↔ ∀ token ∈ Token.ofText source, Legible token.shield.text := by
  have whole := Token.flatMap_text_ofText (shieldAmpersands source)
  rw [Token.ofText_shieldAmpersands, List.flatMap_map] at whole
  rw [← legible_shieldAmpersands, ← whole]
  exact legible_flatMap fun token member => clean_shield member

end HeaderBook

namespace HeaderBook.Document

open Text Source

/-! ### Restoring legible texts -/

/-- The ampersands of a text are restored exactly when the text is legible. -/
theorem exists_restoreAmpersands_iff {text : Text} :
    (∃ restored, restoreAmpersands text = .ok restored) ↔ Legible text := by
  rw [restoreAmpersands_eq, exists_map_eq_ok_iff, exists_mapM_eq_ok_iff]
  constructor
  · intro each marker member
    obtain ⟨_, succeeded⟩ := each _ member
    obtain ⟨index, read, _⟩ := bind_eq_ok_iff.mp succeeded
    exact exists_readNumber_eq_ok_iff.mp ⟨index, read⟩
  · intro legible segment member
    cases segment with
    | plain c => exact ⟨[c], rfl⟩
    | marker found =>
        obtain ⟨index, read⟩ := exists_readNumber_eq_ok_iff.mpr (legible found member)
        exact ⟨_, by rw [restoreAmpersand, read]; rfl⟩

/-- A legible text is restored when all fragments are legible. -/
theorem exists_restoreBelow {document : Document}
    (fragments : ∀ kind, ∀ fragment ∈ (document.table kind).fragments, Legible fragment)
    {limit : Nat} (bounded : limit ≤ document.blocks.length) {text : Text}
    (legible : Legible text) : ∃ restored, document.restoreBelow limit text = .ok restored := by
  induction limit using Nat.strongRecOn generalizing text with
  | _ limit inductionHypothesis =>
      rw [restoreBelow_eq, exists_map_eq_ok_iff, exists_mapM_eq_ok_iff]
      intro segment member
      cases segment with
      | plain c => exact ⟨[c], rfl⟩
      | marker found =>
          obtain ⟨index, read⟩ := exists_readNumber_eq_ok_iff.mpr (legible found member)
          by_cases within : index < document.limits limit found.kind
          · obtain ⟨fragment, entry⟩ := exists_entry bounded within
            have inside := fragments found.kind fragment (List.mem_of_getElem? entry)
            rw [restoreSegment_of_lt read within entry]
            obtain ⟨kind, digits⟩ := found
            cases kind with
            | generic => exact exists_restoreAmpersands_iff.mpr inside
            | docComment => exact exists_restoreAmpersands_iff.mpr inside
            | block =>
                have below : index < limit := within
                exact inductionHypothesis index below (by omega) inside
          · exact ⟨_, restoreSegment_of_le read (Nat.le_of_not_lt within)⟩

/-! ### How restoring fails -/

/-- A number that is not read has more digits than the limit. -/
theorem digitLimit_lt_of_readNumber {digits : Text} {failure : NumberTooLong}
    (failed : readNumber digits = .error failure) : digitLimit < failure.count := by
  unfold readNumber at failed
  split at failed
  next long =>
    obtain rfl := Except.error.inj failed
    exact long
  · cases failed

/-- Where a text fails, one of its segments does. -/
theorem exists_segment_of_error {segments : List Segment}
    {f : Segment → Except NumberTooLong Text} {failure : NumberTooLong}
    (failed : (segments.mapM f).map List.flatten = .error failure) :
    ∃ segment ∈ segments, f segment = .error failure := by
  apply exists_of_mapM_eq_error
  cases parts : segments.mapM f with
  | error other =>
      rw [parts] at failed
      exact congrArg _ (Except.error.inj failed)
  | ok texts =>
      rw [parts] at failed
      cases failed

/-- Restoring ampersands fails on too long a number only. -/
theorem digitLimit_lt_of_restoreAmpersands {text : Text} {failure : NumberTooLong}
    (failed : restoreAmpersands text = .error failure) : digitLimit < failure.count := by
  rw [restoreAmpersands_eq] at failed
  obtain ⟨segment, _, here⟩ := exists_segment_of_error failed
  cases segment with
  | plain c => cases here
  | marker found =>
      rcases bind_eq_error_iff.mp here with unread | ⟨index, _, equal⟩
      · exact digitLimit_lt_of_readNumber unread
      · cases equal

/-- Restoring fails only for a number with too many digits. -/
theorem digitLimit_lt_of_restoreBelow {document : Document} {limit : Nat}
    (bounded : limit ≤ document.blocks.length) {text : Text} {failure : NumberTooLong}
    (failed : document.restoreBelow limit text = .error failure) : digitLimit < failure.count := by
  induction limit using Nat.strongRecOn generalizing text with
  | _ limit inductionHypothesis =>
      rw [restoreBelow_eq] at failed
      obtain ⟨segment, _, here⟩ := exists_segment_of_error failed
      cases segment with
      | plain c => cases here
      | marker found =>
          cases read : readNumber found.digits with
          | error other =>
              rw [restoreSegment_of_error read] at here
              obtain rfl := Except.error.inj here
              exact digitLimit_lt_of_readNumber read
          | ok index =>
              by_cases within : index < document.limits limit found.kind
              · obtain ⟨fragment, entry⟩ := exists_entry bounded within
                rw [restoreSegment_of_lt read within entry] at here
                obtain ⟨kind, digits⟩ := found
                cases kind with
                | generic => exact digitLimit_lt_of_restoreAmpersands here
                | docComment => exact digitLimit_lt_of_restoreAmpersands here
                | block =>
                    have below : index < limit := within
                    exact inductionHypothesis index below (by omega) here
              · rw [restoreSegment_of_le read (Nat.le_of_not_lt within)] at here
                cases here

/-! ### The fragments of a source -/

/-- What an item of a working text is, with the entry behind its marker. -/
inductive Backed (document : Document) (source : Text) (limit : Nat) : Item → Prop where
  | char (c : Char) : Backed document source limit ⟨Item.charSegment c, [.char c]⟩
  | marker {digits : Text} (member : .marker digits ∈ Token.ofText source) :
      Backed document source limit ⟨.marker ⟨.generic, digits⟩, [.marker digits]⟩
  | token {kind : MarkerKind} {index : Nat} {token : Token} (leaf : kind ≠ .block)
      (entry : (document.table kind).fragments[index]? = some token.shield.text)
      (inside : index ≤ source.length) :
      Backed document source limit ⟨.marker (.ofIndex kind index), [token]⟩
  | block {index : Nat} {body : List Item} (below : index < limit)
      (found : (folding source).blocks[index]? = some body)
      (entry : (document.table .block).fragments[index]? = some (body.flatMap Item.text))
      (inside : index ≤ source.length) : Backed document source limit (.block index body)

section

variable {path : CodeText} {source : Text} {declarations : List Declaration}

/-- An item of known origin is backed by the source. -/
theorem backed_of_origin {limit : Nat} {item : Item}
    (origin : ItemFolding.Origin (items source) (folding source).blocks limit item) :
    Backed (withDeclarations path source declarations) source limit item := by
  rcases origin with leaf | ⟨index, body, below, found, rfl⟩
  · cases Item.leaf_of_mem_ofTokens leaf with
    | char _ => exact .char _
    | marker member => exact .marker member
    | literal found =>
        obtain ⟨entry, inside⟩ := generic_withDeclarations path declarations found
        exact .token (by decide) entry inside
    | comment found =>
        obtain ⟨entry, inside⟩ := docComments_withDeclarations path declarations found
        exact .token (by decide) entry inside
  · obtain ⟨entry, inside⟩ := blocks_withDeclarations path declarations found
    exact .block below found entry inside

/-- The text of items is legible, when the source is. -/
theorem legible_items (short : source.length < numberLimit) (readable : Readable source)
    {limit : Nat} {folded : List Item} (origin : ∀ item ∈ folded,
      ItemFolding.Origin (items source) (folding source).blocks limit item) :
    Legible (folded.flatMap Item.text) := by
  intro marker member
  rw [ofText_items fun item inside => (origin item inside).valid] at member
  obtain ⟨item, inside, equal⟩ := List.mem_map.mp member
  have written : ∀ {kind : MarkerKind} {index : Nat}, index ≤ source.length →
      .marker (.ofIndex kind index) = Segment.marker marker →
      marker.digits.length ≤ digitLimit := by
    intro kind index bound same
    obtain rfl := Segment.marker.inj same
    exact length_decimal_le_digitLimit (Nat.lt_of_le_of_lt bound short)
  have backed : Backed (withDeclarations [] source []) source limit item :=
    backed_of_origin (origin item inside)
  cases backed with
  | char c =>
      by_cases ampersand : c = '&'
      · rw [Item.charSegment, if_pos ampersand] at equal
        exact written (Nat.zero_le _) equal
      · rw [Item.charSegment, if_neg ampersand] at equal
        cases equal
  | marker inSource =>
      obtain rfl := Segment.marker.inj equal
      have legible := (readable_iff_tokens source).mp readable _ inSource
      exact (legible_marker (Token.valid_of_marker_mem inSource)).mp legible
  | token _ _ bound => exact written bound equal
  | block _ _ _ bound => exact written bound equal

/-- Every fragment is legible, when the source is. -/
theorem legible_fragments (short : source.length < numberLimit) (readable : Readable source)
    (kind : MarkerKind) :
    ∀ fragment ∈ ((withDeclarations path source declarations).table kind).fragments,
      Legible fragment := by
  have tokens := (readable_iff_tokens source).mp readable
  intro fragment member
  cases kind with
  | generic =>
      rcases List.mem_cons.mp member with rfl | literal
      · intro marker inside
        rw [ofText_ampersand, List.mem_singleton] at inside
        cases inside
      · obtain ⟨text, inside, rfl⟩ := List.mem_map.mp literal
        obtain ⟨position, found⟩ := List.mem_iff_getElem?.mp inside
        exact tokens _ (Token.literal_mem_ofText found)
  | docComment =>
      obtain ⟨lines, inside, rfl⟩ := List.mem_map.mp member
      obtain ⟨position, found⟩ := List.mem_iff_getElem?.mp inside
      exact tokens _ (Token.comment_mem_ofText found)
  | block =>
      obtain ⟨body, inside, rfl⟩ := List.mem_map.mp member
      obtain ⟨index, found⟩ := List.mem_iff_getElem?.mp inside
      exact legible_items short readable fun item inBody => origin_of_mem_block found inBody

/-- When items are restored, every token that they cover is legible: each is reached
through a marker. The limit falls from block to block. -/
theorem legible_of_restoreBelow (short : source.length < numberLimit) {limit : Nat}
    {folded : List Item} (origin : ∀ item ∈ folded,
      ItemFolding.Origin (items source) (folding source).blocks limit item)
    (succeeded : ∃ restored, (withDeclarations path source declarations).restoreBelow limit
      (folded.flatMap Item.text) = .ok restored) :
    ∀ token ∈ folded.flatMap Item.covered, Legible token.shield.text := by
  induction limit using Nat.strongRecOn generalizing folded with
  | _ limit inductionHypothesis =>
      rw [restoreBelow_eq, ofText_items fun item inside => (origin item inside).valid,
        exists_map_eq_ok_iff, exists_mapM_eq_ok_iff] at succeeded
      intro token member
      obtain ⟨item, inside, covers⟩ := List.mem_flatMap.mp member
      have restored := succeeded item.segment (List.mem_map_of_mem inside)
      have backed : Backed (withDeclarations path source declarations) source limit item :=
        backed_of_origin (origin item inside)
      cases backed with
      | char c =>
          obtain rfl := List.mem_singleton.mp covers
          by_cases ampersand : c = '&'
          · rw [Token.shield, if_pos ampersand]
            exact legible_ampersandMarker
          · rw [Token.shield, if_neg ampersand]
            exact legible_plain ampersand
      | marker inSource =>
          obtain rfl := List.mem_singleton.mp covers
          obtain ⟨_, restored⟩ := restored
          obtain ⟨index, read, _⟩ := bind_eq_ok_iff.mp restored
          exact (legible_marker (Token.valid_of_marker_mem inSource)).mpr
            (exists_readNumber_eq_ok_iff.mp ⟨index, read⟩)
      | @token kind index _ leaf entry bound =>
          obtain rfl := List.mem_singleton.mp covers
          have read := readNumber_decimal (Nat.lt_of_le_of_lt bound short)
          have below := (List.getElem?_eq_some_iff.mp entry).1
          cases kind with
          | generic =>
              rw [restoreSegment_of_lt read below entry] at restored
              exact exists_restoreAmpersands_iff.mp restored
          | docComment =>
              rw [restoreSegment_of_lt read below entry] at restored
              exact exists_restoreAmpersands_iff.mp restored
          | block => exact absurd rfl leaf
      | @block index body below found entry bound =>
          have read := readNumber_decimal (Nat.lt_of_le_of_lt bound short)
          have step : (withDeclarations path source declarations).restoreSegment limit
              (.marker (.ofIndex .block index)) =
                (withDeclarations path source declarations).restoreBelow index
                  (body.flatMap Item.text) :=
            restoreSegment_of_lt read below entry
          rw [Item.block, step] at restored
          exact inductionHypothesis index below
            (fun item inBody => origin_of_mem_block found inBody) restored token covers

/-- The folded text of a source is restored exactly when no marker-shaped number of
the source is too long. -/
theorem exists_restore_text_iff (short : source.length < numberLimit) :
    (∃ restored, (withDeclarations path source declarations).restore
        (withDeclarations path source declarations).text = .ok restored) ↔ Readable source := by
  have size : (withDeclarations path source declarations).blocks.length =
      (folding source).blocks.length := by simp [withDeclarations]
  have origin : ∀ item ∈ (folding source).finish, ItemFolding.Origin (items source)
      (folding source).blocks (folding source).blocks.length item :=
    fun item member => origin_of_mem_finish member
  constructor
  · intro succeeded
    rw [restore, size] at succeeded
    rw [readable_iff_tokens, ← covered_finish]
    exact legible_of_restoreBelow short origin succeeded
  · intro readable
    exact exists_restoreBelow (legible_fragments short readable) (Nat.le_refl _)
      (legible_items short readable origin)

end

/-- Restoring is total on the documents of sources. It nests at most three expansions
more than there are blocks and finds every entry it looks up, whatever the text; the
only failure is a number with too many digits. So a text is restored whenever neither
it nor the source holds a marker with such a number, and restoring the folded text
fails exactly when the source holds an ampersand, more digits than can be read, and a
full stop. -/
theorem restore_total (path : CodeText) (source : Text) :
    (∀ document, build path source = .ok document → ∀ text,
      document.expandWithin (document.blocks.length + 3)
          (document.limits document.blocks.length) text =
        (document.restore text).mapError .number ∧
      ∀ failure, document.restore text = .error failure → digitLimit < failure.count) ∧
    (source.length < numberLimit → ∃ document, build path source = .ok document ∧
      (∀ text, (∀ marker : Marker, marker.OccursIn source ∨ marker.OccursIn text →
          marker.digits.length ≤ digitLimit) →
        ∃ restored, document.restore text = .ok restored) ∧
      ((∃ failure, document.restore document.text = .error failure) ↔
        ∃ before digits, MarkerShaped source before digits ∧ digitLimit < digits.length)) := by
  constructor
  · intro document _ text
    exact ⟨document.expandWithin_eq_restore text,
      fun failure failed => digitLimit_lt_of_restoreBelow (Nat.le_refl _) failed⟩
  · intro short
    refine ⟨ofSource path source, build_eq_ok path short, ?_, ?_⟩
    · intro text legible
      have readable : Readable source := by
        rintro before digits ⟨valid, after, rfl⟩
        refine legible ⟨.generic, digits⟩ (.inl ⟨valid, before, after, ?_⟩)
        simp [Marker.text, MarkerKind.opening, MarkerKind.closing]
      exact exists_restoreBelow (legible_fragments short readable) (Nat.le_refl _)
        fun marker member => legible marker (.inr (Segment.occursIn_of_mem member))
    · rw [exists_error_iff, ofSource, exists_restore_text_iff short]
      simp only [Readable, not_forall, Nat.not_le, exists_prop]

/-- A marker in a text has no more digits than the text has characters. -/
theorem length_digits_le_of_occursIn {marker : Marker} {text : Text}
    (occurs : marker.OccursIn text) : marker.digits.length ≤ text.length := by
  obtain ⟨_, before, after, rfl⟩ := occurs
  simp only [Marker.text, List.length_append]
  omega

/-- A literal in a block, with a number of one digit too many. -/
def longNumber : Text :=
  '\x7b' :: '"' :: '&' :: (List.replicate (digitLimit + 1) '1' ++ ['.', '"', '\x7d'])

/-- A literal in a block. -/
def quotedAmpersandBlock : Text :=
  ['\x7b', '"', '&', '"', '\x7d']

/-- Text that imitates markers of every kind. -/
def imitatedMarkers : Text :=
  "&BLOCK9;&BLOCK0;&DOC0:&1.&0.".toList

/-- The long number makes restoring fail, two levels down; imitated markers do not. -/
theorem restore_total_longNumber :
    (∃ document, build [] longNumber = .ok document ∧
      ∃ failure, document.restore document.text = .error failure ∧ digitLimit < failure.count) ∧
    ∃ document, build [] quotedAmpersandBlock = .ok document ∧
      ∃ restored, document.restore imitatedMarkers = .ok restored := by
  constructor
  · obtain ⟨sound, total⟩ := restore_total [] longNumber
    have short : longNumber.length < numberLimit := by
      have size : longNumber.length = digitLimit + 7 := by
        simp only [longNumber, List.length_cons, List.length_append, List.length_replicate,
          List.length_nil]
      have small : digitLimit + 7 < 10 ^ 4 := by decide
      have enough : 4 ≤ digitLimit := by decide
      rw [size]
      unfold numberLimit
      generalize digitLimit = digits at small enough ⊢
      exact Nat.lt_of_lt_of_le small (Nat.pow_le_pow_right (by decide) enough)
    have valid : (⟨.generic, List.replicate (digitLimit + 1) '1'⟩ : Marker).Valid := by
      refine ⟨List.cons_ne_nil _ _, fun c member => ?_⟩
      rw [(List.mem_replicate.mp member).2]
      decide
    have long : digitLimit < (List.replicate (digitLimit + 1) '1').length := by
      rw [List.length_replicate]
      exact Nat.lt_succ_self digitLimit
    obtain ⟨document, built, _, fails⟩ := total short
    obtain ⟨failure, failed⟩ := fails.mpr
      ⟨['\x7b', '"'], _, ⟨valid, ['"', '\x7d'], rfl⟩, long⟩
    exact ⟨document, built, failure, failed, (sound document built document.text).2 failure failed⟩
  · obtain ⟨document, built, total, _⟩ := (restore_total [] quotedAmpersandBlock).2
      (lt_numberLimit_of_le (by decide))
    refine ⟨document, built, total imitatedMarkers fun marker occurs => ?_⟩
    rcases occurs with inSource | inText
    · exact Nat.le_trans (length_digits_le_of_occursIn inSource) (by decide)
    · exact Nat.le_trans (length_digits_le_of_occursIn inText) (by decide)

end HeaderBook.Document
