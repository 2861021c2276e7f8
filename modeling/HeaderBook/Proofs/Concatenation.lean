import Mathlib.Data.List.Infix
import HeaderBook.Proofs.Extraction
import HeaderBook.Proofs.JoinedItems

/-!
# Extraction from joined sources

What is extracted from two sources, one after the other, is what is extracted from
each, if the first one is closed: it leaves no literal, comment, brace or documented
statement open and ends with a line break. The entries are compared with their texts
restored, since the numbers in their texts are those of the whole document.

The runs of the second source are numbered after those of the first.
-/

namespace HeaderBook

open Source Text

/-- A declaration whose comment run comes after `count` others. -/
def Declaration.raised (count : Nat) (declaration : Declaration) : Declaration :=
  { declaration with docIndex := count + declaration.docIndex }

namespace Source

/-- The declaration of an entry with its text restored. -/
def Entry.resolved (entry : Entry) : Declaration :=
  { entry.declaration with text := (entry.items.flatMap Item.covered).flatMap Token.restored }

/-- The numbers that come before those of a source that follows `source`. -/
def Offsets.ofSource (source : Text) : Offsets :=
  ⟨(Source.literals source).length, (Source.runs source).length, (folding source).blocks.length⟩

/-- What follows a complete list of items changes no entry in it. -/
theorem Entry.resolved_before {items : List Item} (complete : Complete items) {entry : Entry}
    (stands : entry.StandsIn items) (more : List Item) :
    (entry.before more).resolved = entry.resolved := by
  unfold Entry.resolved
  rw [Entry.items_before complete stands]
  rfl

/-- Moving the indices of an entry raises the index of its comment run. -/
theorem Entry.resolved_map (offsets : Offsets) {items : List Item} {entry : Entry}
    (stands : entry.StandsIn items) (valid : ∀ item ∈ items, item.segment.Valid) :
    (offsets.entry entry).resolved = entry.resolved.raised offsets.runs := by
  obtain ⟨before, place⟩ := stands.place
  have validBody : ∀ item ∈ entry.body, item.segment.Valid :=
    fun item member => valid item (by rw [place]; simp [member])
  have index : digitsValue (offsets.entry entry).run.digits =
      offsets.runs + digitsValue entry.run.digits := offsets.digitsValue_item stands.isRun
  unfold Entry.resolved Entry.declaration Declaration.raised
  rw [Entry.kind_map offsets validBody, Entry.items_map, Offsets.flatMap_covered_map, index]

/-! ### Closed sources -/

/-- The marker of a comment run stands in `text` between `before` and `after`. -/
def RunMarkerBetween (text before after : Text) : Prop :=
  ∃ digits, (⟨.docComment, digits⟩ : Marker).Valid ∧
    text = before ++ (⟨.docComment, digits⟩ : Marker).text ++ after

/-- A source with its document, to which nothing that follows can belong: all literals
and block comments are terminated, and the folded text has no brace, is empty or ends
with a line break, and has a semicolon after the last marker of a comment run. -/
structure Closed (source : Text) (document : Document) : Prop where
  terminated : Terminated source
  noOpening : '\x7b' ∉ document.text
  noClosing : '\x7d' ∉ document.text
  endLine : document.text = [] ∨ document.text.getLast? = some '\n'
  documented : ∀ before after, RunMarkerBetween document.text before after →
    (∀ inner later, ¬ RunMarkerBetween after inner later) → ';' ∈ after

/-- A semicolon after the last marker is one after every marker. -/
theorem Closed.semicolon_mem {source : Text} {document : Document} (closed : Closed source document)
    {before after : Text} (marker : RunMarkerBetween document.text before after) : ';' ∈ after := by
  induction length : after.length using Nat.strongRecOn generalizing before after with
  | _ size inductionHypothesis =>
      by_cases last : ∀ inner later, ¬ RunMarkerBetween after inner later
      · exact closed.documented before after marker last
      · push Not at last
        obtain ⟨inner, later, digits, valid, rfl⟩ := last
        obtain ⟨earlier, _, whole⟩ := marker
        have further : RunMarkerBetween document.text
            (before ++ (⟨.docComment, earlier⟩ : Marker).text ++ inner) later :=
          ⟨digits, valid, by simp [whole]⟩
        have shorter : later.length < size := by
          rw [← length, Marker.text_eq_inside]
          simp
          omega
        exact List.mem_append_right _ (inductionHypothesis later.length shorter further rfl)

/-- Every marker of a comment run is found by reading the ends of the text. -/
theorem semicolon_mem_of_tails {text : Text}
    (all : ∀ tail ∈ text.tails, ∀ found ∈ MarkerKind.docComment.read? tail, ';' ∈ found.2)
    {before after : Text} (marker : RunMarkerBetween text before after) : ';' ∈ after := by
  obtain ⟨digits, valid, rfl⟩ := marker
  have tail : (⟨.docComment, digits⟩ : Marker).text ++ after ∈
      (before ++ (⟨.docComment, digits⟩ : Marker).text ++ after).tails :=
    (List.mem_tails _ _).mpr ⟨before, by simp⟩
  exact all _ tail (digits, after) (HeaderBook.Marker.kind_read?_text_append valid after)

/-- A plain item of the folded text is a character of the source. -/
theorem covered_of_plain {source : Text} {item : Item} (member : item ∈ (folding source).finish)
    {c : Char} (plain : item.segment = .plain c) : item.covered = [.char c] := by
  rcases origin_of_mem_finish member with leaf | ⟨index, body, _, _, rfl⟩
  · cases Item.leaf_of_mem_ofTokens leaf with
    | @char d _ =>
        have same : d = c := by
          unfold Item.charSegment at plain
          split at plain
          · cases plain
          · exact Segment.plain.inj plain
        rw [same]
    | marker _ => cases plain
    | literal _ => cases plain
    | comment _ => cases plain
  · cases plain

/-- An item whose text holds a semicolon ends a statement. -/
theorem Item.isEnd_of_mem {item : Item} (valid : item.segment.Valid) (semicolon : ';' ∈ item.text) :
    item.isEnd = true := by
  rcases Item.text_cases valid with ⟨c, _, segment, text⟩ | ⟨found, validMarker, segment, text⟩
  · rw [text, List.mem_singleton] at semicolon
    simp [Item.isEnd, segment, ← semicolon]
  · have outside := not_mem_inside validMarker (c := ';') (by decide) (by decide)
    rw [text, Marker.text_eq_inside] at semicolon
    obtain ⟨kind, digits⟩ := found
    cases kind <;> simp_all [Item.isEnd, Item.kind?, MarkerKind.closing]

namespace Closed

variable {path : CodeText} {source : Text} (closed : Closed source (.ofSource path source))

include closed

/-- The last item of the folded text is a line break. -/
theorem segment_of_getLast? {item : Item} (last : item ∈ (folding source).finish.getLast?) :
    item.segment = .plain '\n' := by
  obtain ⟨init, equal⟩ := List.getLast?_eq_some_iff.mp last
  have member : item ∈ (folding source).finish := by rw [equal]; simp
  have text : (Document.ofSource path source).text = init.flatMap Item.text ++ item.text := by
    show (folding source).finish.flatMap Item.text = _
    rw [equal, List.flatMap_append, List.flatMap_singleton]
  have ends := closed.endLine
  rw [text] at ends
  rcases Item.text_cases (valid_of_mem_finish member) with ⟨c, _, segment, single⟩ | ⟨found, _, _, marker⟩
  · rw [single] at ends
    have newline : c = '\n' := by simpa using ends
    rw [segment, newline]
  · have closing : found.text.getLast? = some found.kind.closing := by
      rw [Marker.text_eq_inside, ← List.cons_append, List.getLast?_concat]
    rw [marker] at ends
    rcases ends with empty | newline
    · rw [(List.append_eq_nil_iff.mp empty).2] at closing
      cases closing
    · rw [List.getLast?_append, closing] at newline
      have absurd : found.kind.closing = '\n' := Option.some.inj newline
      cases kind : found.kind <;> simp [kind, MarkerKind.closing] at absurd

/-- The tokens of a closed source end with a line break. -/
theorem endLine_ofText : Token.EndLine (Token.ofText source) := by
  rw [← covered_finish]
  rcases List.eq_nil_or_concat (folding source).finish with empty | ⟨init, item, equal⟩
  · simp [empty, Token.EndLine]
  · have last : item ∈ (folding source).finish.getLast? := by simp [equal]
    have member : item ∈ (folding source).finish := by simp [equal]
    have covered := covered_of_plain member (closed.segment_of_getLast? last)
    rw [equal]
    simp [Token.EndLine, covered]

/-- No brace of a closed source is left open. -/
theorem outer_folding : (folding source).outer = [] := by
  refine ItemFolding.outer_eq_nil fun item member brace => closed.noOpening ?_
  exact List.mem_flatMap.mpr ⟨item, member, by simp [Item.text, brace, Segment.text]⟩

/-- Nothing that follows belongs to the statements of a closed source. -/
theorem complete : Complete (folding source).finish where
  ended before run rest equal isRun := by
    have valid : ∀ item ∈ (folding source).finish, item.segment.Valid :=
      fun _ member => valid_of_mem_finish member
    have segment := Item.segment_of_isRun isRun
    have validRun : Segment.Valid (.marker ⟨.docComment, run.digits⟩) := by
      rw [← segment]
      exact valid run (by rw [equal]; simp)
    have marker : RunMarkerBetween (Document.ofSource path source).text (before.flatMap Item.text)
        (rest.flatMap Item.text) := by
      refine ⟨run.digits, validRun, ?_⟩
      show (folding source).finish.flatMap Item.text = _
      rw [equal, List.flatMap_append, List.flatMap_cons, Item.text, segment, List.append_assoc]
      rfl
    obtain ⟨item, member, semicolon⟩ := List.mem_flatMap.mp (closed.semicolon_mem marker)
    exact ⟨item, member, Item.isEnd_of_mem (valid item (by rw [equal]; simp [member])) semicolon⟩
  endLine item last := closed.segment_of_getLast? last

/-- A closed source is read by itself, and what follows is read after it. -/
theorem ofText_append (more : Text) :
    Token.ofText (source ++ more) = Token.ofText source ++ Token.ofText more :=
  Token.ofText_append closed.terminated.settled closed.endLine_ofText more

/-- Sources without marker-shaped text have none when they are joined after a closed one. -/
theorem unmarked_append (unmarked : Unmarked source) {more : Text} (unmarkedMore : Unmarked more) :
    Unmarked (source ++ more) := by
  by_cases empty : source = []
  · rwa [empty]
  · obtain ⟨front, equal⟩ := closed.endLine_ofText.exists_append empty
    have boundary : Boundary source more := by
      rw [equal]
      exact .of_inner (by decide) (by decide) (by simp) front more
    exact unmarked.append boundary unmarkedMore

/-- The folded items of a closed source come before those of a source that follows. -/
theorem finish_append {more : Text} (unmarked : ∀ digits, .marker digits ∉ Token.ofText more) :
    (folding (source ++ more)).finish =
      (folding source).finish ++ (folding more).finish.map (Offsets.ofSource source).item := by
  have items : items (source ++ more) =
      items source ++ (items more).map (Offsets.ofSource source).item := by
    have moved := (Offsets.ofSource source).ofTokens_add unmarked Nat.one_pos 0
    rw [Source.items, closed.ofText_append, Item.ofTokens_append, Nat.add_comm 1, Nat.add_comm 0]
    exact congrArg (Source.items source ++ ·) moved
  rw [folding, items, ItemFolding.run_append rfl closed.outer_folding, ItemFolding.finish_after]
  rfl

/-- The statements of a closed source come before those of a source that follows, whose
comment runs are counted on. -/
theorem resolved_entries {more : Text} (unmarked : ∀ digits, .marker digits ∉ Token.ofText more) :
    (entries (folding (source ++ more)).finish).map Entry.resolved =
      (entries (folding source).finish).map Entry.resolved ++
        ((entries (folding more).finish).map Entry.resolved).map
          (Declaration.raised (runs source).length) := by
  rw [closed.finish_append unmarked, entries_append closed.complete, entries_map, List.map_append,
    List.map_map, List.map_map, List.map_map]
  congr 1
  · exact List.map_congr_left fun entry member =>
      Entry.resolved_before closed.complete (standsIn_of_mem_entries member) _
  · exact List.map_congr_left fun entry member =>
      Entry.resolved_map _ (standsIn_of_mem_entries member) fun item => valid_of_mem_finish

end Closed

end Source

namespace Document

/-- The declarations of a document in text order, each with its text restored. -/
def resolved (document : Document) : Except NumberTooLong (List Declaration) :=
  document.declarations.mapM fun declaration => do
    let text ← document.restore declaration.text
    return { declaration with text }

/-- The declarations are restored entry by entry, unless an index is too long. -/
theorem yields_resolved (path : CodeText) {source : Text} (unmarked : Unmarked source) :
    Yields source.length (ofSource path source).resolved
      ((entries (folding source).finish).map Entry.resolved) := by
  have declarations : (ofSource path source).declarations =
      (entries (folding source).finish).map Entry.declaration := rfl
  rw [resolved, declarations, List.mapM_map]
  refine .mapM fun entry member => ?_
  have restored : Yields source.length ((ofSource path source).restore entry.declaration.text) _ :=
    yields_restore unmarked.readable unmarked.marker_not_mem (mem_finish_of_mem_entry member)
  exact restored.bind (.inl rfl)

/-- What is extracted from a closed source and another one after it: the entries of the
first, then those of the second with their comment runs counted on. All documents and
entries exist if the two sources together have fewer than `numberLimit` characters. -/
theorem resolved_append (path : CodeText) {front back : Text} (unmarkedFront : Unmarked front)
    (unmarkedBack : Unmarked back) {first : Document} (built : build path front = .ok first)
    (closed : Closed front first) :
    (∀ second whole early late entries, build path back = .ok second →
      build path (front ++ back) = .ok whole → first.resolved = .ok early →
      second.resolved = .ok late → whole.resolved = .ok entries →
        entries = early ++ late.map (Declaration.raised first.docComments.length)) ∧
    ((front ++ back).length < numberLimit → ∃ second whole early late,
      build path back = .ok second ∧ build path (front ++ back) = .ok whole ∧
      first.resolved = .ok early ∧ second.resolved = .ok late ∧
      whole.resolved = .ok (early ++ late.map (Declaration.raised first.docComments.length))) := by
  obtain rfl := (yields_build path front).eq_of_ok built
  have unmarked := closed.unmarked_append unmarkedFront unmarkedBack
  have joined := closed.resolved_entries unmarkedBack.marker_not_mem
  have counted : (ofSource path front).docComments.length = (runs front).length := by
    simp [ofSource, withDeclarations]
  rw [counted]
  constructor
  · intro second whole early late entries builtSecond builtWhole resolvedFirst resolvedSecond
      resolvedWhole
    obtain rfl := (yields_build path back).eq_of_ok builtSecond
    obtain rfl := (yields_build path (front ++ back)).eq_of_ok builtWhole
    rw [(yields_resolved path unmarkedFront).eq_of_ok resolvedFirst,
      (yields_resolved path unmarkedBack).eq_of_ok resolvedSecond,
      (yields_resolved path unmarked).eq_of_ok resolvedWhole, joined]
  · intro short
    have shortFront : front.length < numberLimit :=
      Nat.lt_of_le_of_lt (List.length_append ▸ Nat.le_add_right _ _) short
    have shortBack : back.length < numberLimit :=
      Nat.lt_of_le_of_lt (List.length_append ▸ Nat.le_add_left _ _) short
    refine ⟨_, _, _, _, build_eq_ok path shortBack, build_eq_ok path short,
      (yields_resolved path unmarkedFront).ok shortFront,
      (yields_resolved path unmarkedBack).ok shortBack, ?_⟩
    rw [(yields_resolved path unmarked).ok short, joined]

/-- A documented function whose body holds a quoted brace. -/
def bracedHeader : Text :=
  "// a\nf \x7b\"\x7d\"\x7d\n".toList

/-- A documented class, and a documented function with an ampersand. -/
def laterHeader : Text :=
  "// b\nclass C \x7b\x7d;\n// c\nint &g('\x7b');".toList

/-- The header with the quoted brace is closed. -/
theorem closed_bracedHeader : Closed bracedHeader (ofSource [] bracedHeader) := by
  have folded : (ofSource [] bracedHeader).text = "&DOC0:f &BLOCK0;\n".toList := by
    decide +kernel
  have shielded : outsideLineComments (shieldedText bracedHeader) =
      "\nf \x7b&1.\x7d\n".toList := by decide +kernel
  refine ⟨?_, ?_, ?_, ?_, ?_⟩
  · rw [Terminated, shielded]
    exact ⟨by decide, by decide, by decide⟩
  · rw [folded]
    decide
  · rw [folded]
    decide
  · rw [folded]
    decide
  · rintro before after marker -
    rw [folded] at marker
    exact semicolon_mem_of_tails (by decide +kernel) marker

/-- The two headers together: the braces in quotes count for nothing, and the numbers of the
comments go on. -/
theorem resolved_append_bracedHeader :
    Unmarked bracedHeader ∧ Unmarked laterHeader ∧
      ∃ first whole, build [] bracedHeader = .ok first ∧ Closed bracedHeader first ∧
        build [] (bracedHeader ++ laterHeader) = .ok whole ∧ whole.resolved = .ok
          [⟨.functionLike, "// a\nf \x7b\"\x7d\"\x7d".toList, 0⟩,
            ⟨.classLike, "// b\nclass C \x7b\x7d;".toList, 1⟩,
            ⟨.functionLike, "// c\nint &g('\x7b');".toList, 2⟩] := by
  have unmarkedFront : Unmarked bracedHeader := by decide +kernel
  have unmarkedBack : Unmarked laterHeader := by decide +kernel
  have built := build_eq_ok [] (lt_numberLimit_of_le (by decide) : bracedHeader.length < numberLimit)
  obtain ⟨_, succeeds⟩ := resolved_append [] unmarkedFront unmarkedBack built closed_bracedHeader
  obtain ⟨second, whole, early, late, builtBack, builtWhole, resolvedFront, resolvedBack, resolvedWhole⟩ :=
    succeeds (lt_numberLimit_of_le (by decide))
  obtain rfl := (yields_build [] laterHeader).eq_of_ok builtBack
  have earlyEntries : (ofSource [] bracedHeader).resolved =
      .ok [⟨.functionLike, "// a\nf \x7b\"\x7d\"\x7d".toList, 0⟩] := by decide +kernel
  have lateEntries : (ofSource [] laterHeader).resolved =
      .ok [⟨.classLike, "// b\nclass C \x7b\x7d;".toList, 0⟩,
        ⟨.functionLike, "// c\nint &g('\x7b');".toList, 1⟩] := by decide +kernel
  obtain rfl := Except.ok.inj (earlyEntries.symm.trans resolvedFront)
  obtain rfl := Except.ok.inj (lateEntries.symm.trans resolvedBack)
  have count : (ofSource [] bracedHeader).docComments.length = 1 := by decide +kernel
  rw [count] at resolvedWhole
  exact ⟨unmarkedFront, unmarkedBack, _, whole, built, closed_bracedHeader, builtWhole, resolvedWhole⟩

end Document

end HeaderBook
