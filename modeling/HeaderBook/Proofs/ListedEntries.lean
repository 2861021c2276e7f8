import Mathlib.Data.List.DropRight
import Mathlib.Data.List.TakeWhile
import HeaderBook.Proofs.BoundedExpansion
import HeaderBook.Proofs.Extraction
import HeaderBook.Proofs.PageDecoding

/-!
# Entries stand unaltered in listings

A listing trims its entries, and there is nothing to trim. Among the folded items an
entry begins with the marker of a run and ends with a semicolon or the marker of a
block. Both markers refer to fragments of the source, so that the entry, once
restored, begins with the slashes of a comment line and ends with a semicolon or a
closing brace. None of these characters is a blank.

An entry is restored whenever the folded text is, since its items are among those of
the text.
-/

namespace HeaderBook

/-! ### Trimming and joining -/

namespace Text

/-- Nothing is trimmed from a text whose first and last character stay. -/
theorem trim_eq_self {drop : Char → Bool} {text : Text}
    (first : ∀ c, text.head? = some c → drop c = false)
    (last : ∀ c, text.getLast? = some c → drop c = false) : trim drop text = text := by
  have front : text.dropWhile drop = text := by
    cases text with
    | nil => rfl
    | cons c rest => exact List.dropWhile_cons_of_neg (by rw [first c rfl]; exact Bool.false_ne_true)
  have back : text.rdropWhile drop = text := by
    refine List.rdropWhile_eq_self_iff.mpr fun nonempty => ?_
    rw [last _ (List.getLast?_eq_some_getLast nonempty)]
    exact Bool.false_ne_true
  rw [trim, front]
  exact back

/-- What is removed at the end of a text is a run of `c`, and no `c` is left there. -/
theorem exists_trimEnd (c : Char) (text : Text) :
    ∃ count, text = trimEnd (· = c) text ++ List.replicate count c ∧
      (trimEnd (· = c) text).getLast? ≠ some c := by
  induction text using List.reverseRecOn with
  | nil => exact ⟨0, rfl, by simp [trimEnd]⟩
  | append_singleton init last inductionHypothesis =>
      have step : trimEnd (· = c) (init ++ [last]) =
          if decide (last = c) = true then trimEnd (· = c) init else init ++ [last] :=
        List.rdropWhile_concat _ init last
      by_cases equal : last = c
      · obtain ⟨count, whole, none⟩ := inductionHypothesis
        rw [step, if_pos (decide_eq_true equal)]
        refine ⟨count + 1, ?_, none⟩
        rw [List.replicate_succ', ← List.append_assoc, ← whole, equal]
      · rw [step, if_neg (by simpa using equal)]
        exact ⟨0, (List.append_nil _).symm, by simpa using equal⟩

/-- Two lists are joined by one more separator. -/
theorem join_append {left right : List Text} (some : left ≠ []) (more : right ≠ [])
    (separator : Text) :
    join separator (left ++ right) = join separator left ++ separator ++ join separator right := by
  induction left with
  | nil => exact absurd rfl some
  | cons first rest inductionHypothesis =>
      cases rest with
      | nil =>
          obtain ⟨second, others, rfl⟩ := List.exists_cons_of_ne_nil more
          rw [join, List.singleton_append, List.intercalate_cons_cons, join,
            List.intercalate_singleton, join]
      | cons second rest =>
          have shorter := inductionHypothesis (List.cons_ne_nil second rest)
          simp only [join, List.cons_append, List.intercalate_cons_cons] at shorter ⊢
          rw [shorter]
          simp only [List.append_assoc]

end Text

namespace Listing

open Text (NumberTooLong)

/-- The lines of a listing: each entry behind its number, or a remark that there are none. -/
def lines (entries : List Text) : List Text :=
  if entries = [] then ["(none)".toList]
  else entries.mapIdx fun position entry =>
    '[' :: Text.decimal (position + 1) ++ "] ".toList ++ entry

/-- There is a line at least. -/
theorem lines_ne_nil (entries : List Text) : lines entries ≠ [] := by
  unfold lines
  split
  · exact List.cons_ne_nil _ _
  · simpa using ‹entries ≠ []›

/-- A text that begins like a run of comment lines, or like the marker of one, and ends
like a statement or a block. -/
structure Shaped (text : Text) : Prop where
  begins : ['&', 'D', 'O', 'C'] <+: text ∨ ['/', '/'] <+: text
  ends : [';'] <:+ text ∨ ['\x7d'] <:+ text

/-- Nothing is trimmed from a shaped text. -/
theorem Shaped.trim_eq {text : Text} (shaped : Shaped text) :
    Text.trim Text.isBlank text = text := by
  apply Text.trim_eq_self
  · intro c first
    rcases shaped.begins with ⟨rest, rfl⟩ | ⟨rest, rfl⟩
    · obtain rfl := Option.some.inj first
      decide
    · obtain rfl := Option.some.inj first
      decide
  · intro c last
    rcases shaped.ends with ⟨rest, rfl⟩ | ⟨rest, rfl⟩
    · rw [List.getLast?_concat] at last
      obtain rfl := Option.some.inj last
      decide
    · rw [List.getLast?_concat] at last
      obtain rfl := Option.some.inj last
      decide

/-- Shaped entries are listed as they are, each behind its number. -/
theorem numbered_eq {entries : List Text} (shaped : ∀ entry ∈ entries, Shaped entry)
    (ordinal : Nat) :
    numbered ordinal entries = entries.mapIdx fun position entry =>
      '[' :: Text.decimal (position + ordinal) ++ "] ".toList ++ entry := by
  induction entries generalizing ordinal with
  | nil => rfl
  | cons entry entries inductionHypothesis =>
      rw [List.forall_mem_cons] at shaped
      rw [numbered, shaped.1.trim_eq, inductionHypothesis shaped.2, List.mapIdx_cons, Nat.zero_add]
      simp only [Nat.add_assoc, Nat.add_comm 1 ordinal]
      rfl

/-- A section has its heading and then a line for each entry. -/
theorem renderSection_eq {entries : List Text} (shaped : ∀ entry ∈ entries, Shaped entry)
    (heading : Text) :
    renderSection heading entries = heading ++ ['\n'] ++ Text.join ['\n'] (lines entries) := by
  have same : (if entries.isEmpty then ["(none)".toList] else numbered 1 entries) = lines entries := by
    rw [numbered_eq shaped, lines]
    simp only [List.isEmpty_iff]
  have alone : Text.join ['\n'] [heading] = heading := List.intercalate_singleton
  have joined := Text.join_append (List.cons_ne_nil heading []) (lines_ne_nil entries) ['\n']
  rw [alone] at joined
  rw [renderSection, same]
  exact joined

/-- The page text, line by line, when no entry is altered. -/
theorem content_eq {classes functions : List Text}
    (shaped : ∀ entry ∈ classes ++ functions, Shaped entry) (main : Text) :
    content main classes functions =
      Text.join ['\n'] ([Text.trimEnd (· = '\n') main, [], "Classes".toList] ++ lines classes ++
        [[], "Functions".toList] ++ lines functions) := by
  rw [List.forall_mem_append] at shaped
  rw [content, renderSection_eq shaped.1, renderSection_eq shaped.2]
  have first := lines_ne_nil classes
  have second := lines_ne_nil functions
  rw [Text.join_append (by simp) second, Text.join_append (by simp) (by simp),
    Text.join_append (by simp) first]
  simp [Text.join, List.intercalate]

/-- A text as it is shown: as it stands, or restored. -/
def shown (document : Document) (restoring : Bool) (text : Text) : Except NumberTooLong Text :=
  if restoring then document.restore text else .ok text

end Listing

/-! ### The ends of an entry -/

namespace Source

open Listing (Shaped)

/-- A folded block ends with the brace that closed it. -/
theorem ItemFolding.exists_concat_of_mem_blocks (items : List Item) :
    ∀ body ∈ (run items).blocks, ∃ inner last, body = inner ++ [last] ∧
      last.segment = .plain '\x7d' := by
  induction items using run_induction with
  | initial => exact fun body member => absurd member List.not_mem_nil
  | @kept read state item next closed transition =>
      cases transition with
      | opening => exact closed
      | keeping => exact closed
      | @closing current _ _ _ _ brace =>
          intro body member
          rcases List.mem_append.mp member with earlier | new
          · exact closed body earlier
          · exact ⟨current, item, List.mem_singleton.mp new, brace⟩

/-- A run begins with the slashes of its first line. -/
theorem Token.exists_line_of_comment_mem {source : Text} {lines : List Text}
    (member : .comment lines ∈ ofText source) :
    ∃ line more, lines = ('/' :: '/' :: line) :: more := by
  induction source using Token.induction with
  | nil => simp at member
  | line body after oneLine ends inductionHypothesis =>
      rw [ofText_line oneLine ends] at member
      unfold joinRun at member
      split at member
      next following rest tokens =>
        rcases List.mem_cons.mp member with equal | later
        · exact ⟨_, following, Token.comment.inj equal⟩
        · exact inductionHypothesis (by rw [tokens]; exact List.mem_cons_of_mem _ later)
      next =>
        rcases List.mem_cons.mp member with equal | later
        · exact ⟨_, [], Token.comment.inj equal⟩
        · exact inductionHypothesis later
  | marker digits after valid inductionHypothesis =>
      rw [ofText_marker valid] at member
      rcases List.mem_cons.mp member with equal | later
      · cases equal
      · exact inductionHypothesis later
  | char c rest step _ closed inductionHypothesis =>
      rw [ofText_char step closed] at member
      rcases List.mem_cons.mp member with equal | later
      · cases equal
      · exact inductionHypothesis later
  | literal c rest lexeme after step captured inductionHypothesis =>
      rw [ofText_literal step captured] at member
      rcases List.mem_cons.mp member with equal | later
      · cases equal
      · exact inductionHypothesis later

/-- What trails a statement is nothing, or it ends with what ends a statement. -/
theorem Item.trailer_cases (items : List Item) :
    trailer items = [] ∨ ∃ gap last, trailer items = gap ++ [last] ∧ last.isEnd = true := by
  induction items with
  | nil => exact .inl rfl
  | cons item items inductionHypothesis =>
      rw [trailer]
      split
      next semicolon => exact .inr ⟨[], item, rfl, by simp [isEnd, semicolon]⟩
      · split
        next spaced =>
          rcases inductionHypothesis with nothing | ⟨gap, last, equal, ends⟩
          · simp [nothing] at spaced
          · exact .inr ⟨item :: gap, last, by rw [equal]; rfl, ends⟩
        · exact .inl rfl

/-- A block's marker among the folded items stands for a block of the table. -/
theorem exists_block_of_kind? {source : Text} {item : Item}
    (member : item ∈ (folding source).finish) (block : item.kind? = some .block) :
    ∃ index body, (folding source).blocks[index]? = some body ∧ item = .block index body := by
  rcases origin_of_mem_finish member with leaf | ⟨index, body, _, found, equal⟩
  · obtain ⟨token, atomic⟩ := Item.atomic_of_mem_items leaf
    exact absurd block atomic.noBlock
  · exact ⟨index, body, found, equal⟩

/-- After its run, an entry reaches through a semicolon or a block. -/
theorem Entry.StandsIn.exists_ends {folded : List Item} {entry : Entry}
    (stands : entry.StandsIn folded) :
    ∃ inner last, entry.items = entry.run :: inner ++ [last] ∧ last.isEnd = true := by
  obtain ⟨_, init, last, body, ends, _⟩ := Item.of_statement? stands.statement
  have alone : entry.run :: entry.body = entry.run :: init ++ [last] := by rw [body]; rfl
  unfold Entry.items
  split
  · rcases Item.trailer_cases entry.rest with nothing | ⟨gap, final, equal, closes⟩
    · exact ⟨init, last, by rw [nothing, List.append_nil, alone], ends⟩
    · refine ⟨entry.body ++ gap, final, ?_, closes⟩
      rw [equal, ← List.append_assoc]
      rfl
  · exact ⟨init, last, by rw [List.append_nil, alone], ends⟩

/-- What ends a statement ends with a semicolon. -/
theorem Item.suffix_text_of_isEnd {item : Item} (ends : item.isEnd = true) : [';'] <:+ item.text := by
  obtain ⟨segment, covered⟩ := item
  rcases Item.isEnd_iff.mp ends with semicolon | block
  · obtain rfl : segment = .plain ';' := semicolon
    exact List.suffix_refl _
  · cases segment with
    | plain c => cases block
    | marker found =>
        have kind : found.kind = .block := Option.some.inj block
        rw [Item.text, Segment.text, Marker.text, kind]
        exact List.suffix_append _ _

/-- An entry of a folded text has nothing around it that could be trimmed. -/
theorem Entry.StandsIn.shaped {folded : List Item} {entry : Entry} (stands : entry.StandsIn folded) :
    Shaped (entry.items.flatMap Item.text) := by
  obtain ⟨inner, last, items, ends⟩ := stands.exists_ends
  rw [items, List.flatMap_append, List.flatMap_singleton]
  refine ⟨.inl ?_, .inl ((Item.suffix_text_of_isEnd ends).trans (List.suffix_append _ _))⟩
  rw [List.flatMap_cons, Item.text, Item.segment_of_isRun stands.isRun, Segment.text, Marker.text]
  simp only [List.append_assoc]
  exact List.prefix_append _ _

end Source

/-! ### The ends of a restored entry -/

namespace Document

open Source Text
open Listing (Shaped shown)

/-- A text of items is restored item by item. -/
theorem restoreBelow_items (document : Document) (limit : Nat) {folded : List Item}
    (valid : ∀ item ∈ folded, item.segment.Valid) :
    document.restoreBelow limit (folded.flatMap Item.text) =
      (folded.mapM fun item => document.restoreSegment limit item.segment).map List.flatten := by
  rw [restoreBelow_eq, ofText_items valid, List.mapM_map]
  rfl

/-- The marker of an entry within the limits is restored to what is behind it. -/
theorem restoreNested_of_restoreSegment {document : Document} {kind : MarkerKind} {index limit : Nat}
    {fragment result : Text} (within : index < document.limits limit kind)
    (entry : (document.table kind).fragments[index]? = some fragment)
    (restored : document.restoreSegment limit (.marker (.ofIndex kind index)) = .ok result) :
    document.restoreNested index kind fragment = .ok result := by
  obtain ⟨number, read, _⟩ := bind_eq_ok_iff.mp restored
  obtain rfl : number = index := (yields_readNumber (Nat.le_refl index)).eq_of_ok read
  rwa [restoreSegment_of_lt read within entry] at restored

/-- A comment line still begins with its slashes when ampersands are restored. -/
theorem slashes_prefix_of_restoreAmpersands {line result : Text}
    (restored : restoreAmpersands ('/' :: '/' :: line) = .ok result) : ['/', '/'] <+: result := by
  rw [restoreAmpersands_eq, Segment.ofText_plain (by decide), Segment.ofText_plain (by decide)]
    at restored
  have parts : (([Segment.plain '/', .plain '/'] ++ Segment.ofText line).mapM
      restoreAmpersand).map List.flatten = .ok result := restored
  obtain ⟨front, back, slashes, _, rfl⟩ := flatten_mapM_append parts
  obtain rfl : ['/', '/'] = front := Except.ok.inj slashes
  exact List.prefix_append _ _

section

variable {path : CodeText} {source : Text} {declarations : List Declaration} {item : Item}
  {result : Text} {limit : Nat}

/-- The run of an entry is restored to comment lines. -/
theorem slashes_prefix_of_isRun (member : item ∈ (folding source).finish) (isRun : item.isRun = true)
    (restored : (withDeclarations path source declarations).restoreSegment limit item.segment =
      .ok result) : ['/', '/'] <+: result := by
  obtain ⟨position, lines, found, rfl⟩ := exists_run_of_isRun member isRun
  obtain ⟨line, more, rfl⟩ := Token.exists_line_of_comment_mem (Token.comment_mem_ofText found)
  obtain ⟨entry, _⟩ := docComments_withDeclarations path declarations found
  rw [Nat.zero_add] at entry
  have within := (List.getElem?_eq_some_iff.mp entry).1
  have lines : restoreAmpersands ((('/' :: '/' :: line) :: more).map shieldAmpersands).flatten =
      .ok result := restoreNested_of_restoreSegment within entry restored
  rw [List.map_cons, List.flatten_cons, shieldAmpersands_cons_of_ne (by decide),
    shieldAmpersands_cons_of_ne (by decide)] at lines
  exact slashes_prefix_of_restoreAmpersands lines

/-- A block is restored to a text that ends with its brace. -/
theorem brace_suffix_of_restoreBelow {index : Nat} {body : List Item}
    (found : (folding source).blocks[index]? = some body) {document : Document}
    (restored : document.restoreBelow limit (body.flatMap Item.text) = .ok result) :
    ['\x7d'] <:+ result := by
  rw [restoreBelow_items document limit fun item inside => (origin_of_mem_block found inside).valid]
    at restored
  obtain ⟨inner, last, rfl, brace⟩ :=
    ItemFolding.exists_concat_of_mem_blocks (items source) body (List.mem_of_getElem? found)
  obtain ⟨front, back, _, closing, rfl⟩ := flatten_mapM_append restored
  rw [flatten_mapM_singleton, brace] at closing
  obtain rfl : ['\x7d'] = back := Except.ok.inj closing
  exact List.suffix_append _ _

/-- The end of an entry is restored to a text with the same end or with a brace. -/
theorem suffix_of_isEnd (member : item ∈ (folding source).finish) (ends : item.isEnd = true)
    (restored : (withDeclarations path source declarations).restoreSegment
      (withDeclarations path source declarations).blocks.length item.segment = .ok result) :
    [';'] <:+ result ∨ ['\x7d'] <:+ result := by
  rcases Item.isEnd_iff.mp ends with semicolon | block
  · rw [semicolon] at restored
    obtain rfl : [';'] = result := Except.ok.inj restored
    exact .inl (List.suffix_refl _)
  · obtain ⟨index, body, found, rfl⟩ := exists_block_of_kind? member block
    obtain ⟨entry, _⟩ := blocks_withDeclarations path declarations found
    have within := (List.getElem?_eq_some_iff.mp entry).1
    exact .inr (brace_suffix_of_restoreBelow found
      (restoreNested_of_restoreSegment within entry restored))

/-- An entry has nothing around it that could be trimmed after it is restored. -/
theorem shaped_of_restore {entry : Source.Entry} (member : entry ∈ entries (folding source).finish)
    (restored : (withDeclarations path source declarations).restore entry.declaration.text =
      .ok result) : Shaped result := by
  have stands := standsIn_of_mem_entries member
  have inside := mem_finish_of_mem_entry member
  obtain ⟨inner, last, equal, ends⟩ := stands.exists_ends
  rw [equal] at inside
  rw [restore, Entry.declaration, equal,
    restoreBelow_items _ _ fun item among => valid_of_mem_finish (inside item among)] at restored
  obtain ⟨front, back, before, closing, rfl⟩ := flatten_mapM_append restored
  rw [← List.singleton_append] at before
  obtain ⟨first, middle, opening, _, rfl⟩ := flatten_mapM_append before
  rw [flatten_mapM_singleton] at opening closing
  constructor
  · have slashes := slashes_prefix_of_isRun (inside entry.run (by simp)) stands.isRun opening
    rw [List.append_assoc]
    exact .inr (slashes.trans (List.prefix_append _ _))
  · have last := suffix_of_isEnd (inside last (by simp)) ends closing
    exact last.imp (·.trans (List.suffix_append _ _)) (·.trans (List.suffix_append _ _))

/-- An entry is restored when the folded text is: its items are among those of the text. -/
theorem exists_restore_entry {entry : Source.Entry} (member : entry ∈ entries (folding source).finish)
    (restored : ∃ main, (withDeclarations path source declarations).restore
      (withDeclarations path source declarations).text = .ok main) :
    ∃ result, (withDeclarations path source declarations).restore entry.declaration.text =
      .ok result := by
  have inside := mem_finish_of_mem_entry member
  rw [restore, withDeclarations, restoreBelow_items _ _ fun item => valid_of_mem_finish,
    exists_map_eq_ok_iff, exists_mapM_eq_ok_iff] at restored
  rw [restore, Entry.declaration,
    restoreBelow_items _ _ fun item among => valid_of_mem_finish (inside item among),
    exists_map_eq_ok_iff, exists_mapM_eq_ok_iff]
  exact fun item among => restored item (inside item among)

end

/-- When the folded text of a source is shown, so is every declaration, and nothing
around it could be trimmed. -/
theorem exists_shown {path : CodeText} {source : Text} {restoring : Bool} {main : Text}
    (shownText : shown (ofSource path source) restoring (ofSource path source).text = .ok main) :
    ∀ declaration ∈ (ofSource path source).declarations, ∃ result,
      shown (ofSource path source) restoring declaration.text = .ok result ∧ Shaped result := by
  intro declaration member
  obtain ⟨entry, among, rfl⟩ := List.mem_map.mp member
  cases restoring with
  | false => exact ⟨_, rfl, (standsIn_of_mem_entries among).shaped⟩
  | true =>
      obtain ⟨result, restored⟩ := exists_restore_entry among ⟨main, shownText⟩
      exact ⟨result, restored, shaped_of_restore among restored⟩

/-- The same for some of the declarations. -/
theorem exists_mapM_shown {path : CodeText} {source : Text} {restoring : Bool} {main : Text}
    (shownText : shown (ofSource path source) restoring (ofSource path source).text = .ok main)
    {chosen : List Declaration}
    (among : ∀ entry ∈ chosen, entry ∈ (ofSource path source).declarations) :
    ∃ texts, chosen.mapM (fun entry => shown (ofSource path source) restoring entry.text) =
      .ok texts ∧ ∀ text ∈ texts, Shaped text := by
  have each := exists_shown shownText
  obtain ⟨texts, all⟩ := exists_mapM_eq_ok_iff.mpr fun entry (member : entry ∈ chosen) =>
    (each entry (among entry member)).imp fun _ => And.left
  refine ⟨texts, all, fun text member => ?_⟩
  obtain ⟨entry, inside, same⟩ := exists_of_mem_mapM all member
  obtain ⟨result, unique, shaped⟩ := each entry (among entry inside)
  rwa [Except.ok.inj (same.symm.trans unique)]

end Document

namespace Page

open Listing (Shaped shown lines)

/-- A page shows the text and the two sections when each of them can be shown. -/
theorem ofDocument_eq_ok {page : Page} {document : Document} {restoring : Bool} {main : Text}
    {classes functions : List Text} (shownText : shown document restoring document.text = .ok main)
    (shownClasses : document.classes.mapM (fun entry => shown document restoring entry.text) =
      .ok classes)
    (shownFunctions : document.functions.mapM (fun entry => shown document restoring entry.text) =
      .ok functions) :
    page.ofDocument document restoring =
      .ok (page.text (CodeText.ofText (Listing.content main classes functions))) := by
  have listing : Listing.ofDocument document restoring =
      .ok (Listing.content main classes functions) :=
    bind_eq_ok_iff.mpr ⟨main, shownText, bind_eq_ok_iff.mpr ⟨classes, shownClasses,
      bind_eq_ok_iff.mpr ⟨functions, shownFunctions, rfl⟩⟩⟩
  rw [ofDocument, listing]
  rfl

/-- Whenever the folded text of a source can be shown, as it stands or restored, so can
its page. What the block of the page then says is the text without its last line breaks,
and each class and each function behind its number, unaltered: no entry begins or ends
with anything that could be trimmed. -/
theorem unescape_between?_ofDocument (path : CodeText) (source : Text) (page : Page)
    (restoring : Bool) :
    (source.length < Text.numberLimit → ∃ document, Document.build path source = .ok document) ∧
    ∀ document main, Document.build path source = .ok document →
      shown document restoring document.text = .ok main →
      ∃ body breaks classes functions markup,
        main = body ++ List.replicate breaks '\n' ∧ body.getLast? ≠ some '\n' ∧
        document.classes.mapM (fun entry => shown document restoring entry.text) = .ok classes ∧
        document.functions.mapM (fun entry => shown document restoring entry.text) =
          .ok functions ∧
        page.ofDocument document restoring = .ok markup ∧
        (CodeText.between? (codes "<pre>") (codes "</pre>") markup).map Markup.unescape =
          some (CodeText.ofText (Text.join ['\n']
            ([body, [], "Classes".toList] ++ lines classes ++
              [[], "Functions".toList] ++ lines functions))) ∧
        ∀ entry ∈ classes ++ functions, Shaped entry ∧ Text.trim Text.isBlank entry = entry := by
  refine ⟨fun short => ⟨_, Document.build_eq_ok path short⟩, ?_⟩
  intro document main built shownText
  obtain rfl : document = .ofSource path source := (Document.yields_build path source).eq_of_ok built
  obtain ⟨classes, shownClasses, shapedClasses⟩ :=
    Document.exists_mapM_shown shownText fun entry member => List.mem_of_mem_filter member
  obtain ⟨functions, shownFunctions, shapedFunctions⟩ :=
    Document.exists_mapM_shown shownText fun entry member => List.mem_of_mem_filter member
  have shaped : ∀ entry ∈ classes ++ functions, Shaped entry :=
    List.forall_mem_append.mpr ⟨shapedClasses, shapedFunctions⟩
  obtain ⟨breaks, whole, ended⟩ := Text.exists_trimEnd '\n' main
  refine ⟨_, breaks, classes, functions, _, whole, ended, shownClasses, shownFunctions,
    ofDocument_eq_ok shownText shownClasses shownFunctions, ?_,
    fun entry member => ⟨shaped entry member, (shaped entry member).trim_eq⟩⟩
  rw [between?_content, Option.map_some, Markup.unescape_escapeContent,
    Listing.content_eq shaped]

/-- A class with a body and a space before its semicolon, and a function with an
ampersand in a literal. -/
def documentedHeader : Text :=
  "// A\nclass A \x7b int x; \x7d ;\n\n// f\nint f(\"&\");\n\n".toList

/-- The restored page of the header. -/
theorem unescape_between?_ofDocument_documentedHeader :
    ∃ document body breaks markup, Document.build [] documentedHeader = .ok document ∧
      shown document true document.text = .ok documentedHeader ∧
      documentedHeader = body ++ List.replicate breaks '\n' ∧ body.getLast? ≠ some '\n' ∧
      (Page.mk [] [] [] false).ofDocument document true = .ok markup ∧
      (CodeText.between? (codes "<pre>") (codes "</pre>") markup).map Markup.unescape =
        some (CodeText.ofText (Text.join ['\n']
          [body, [], "Classes".toList, "[1] // A\nclass A \x7b int x; \x7d ;".toList,
            [], "Functions".toList, "[1] // f\nint f(\"&\");".toList])) := by
  have short : documentedHeader.length < Text.numberLimit := Text.lt_numberLimit_of_le (by decide)
  have built := Document.build_eq_ok [] short
  have shownText : shown (.ofSource [] documentedHeader) true
      (Document.ofSource [] documentedHeader).text = .ok documentedHeader := by
    decide +kernel
  obtain ⟨body, breaks, classes, functions, markup, whole, ended, shownClasses, shownFunctions,
    page, shows, _⟩ := (unescape_between?_ofDocument [] documentedHeader ⟨[], [], [], false⟩ true).2
      _ _ built shownText
  have oneClass : (Document.ofSource [] documentedHeader).classes.mapM
      (fun entry => shown (.ofSource [] documentedHeader) true entry.text) =
        .ok ["// A\nclass A \x7b int x; \x7d ;".toList] := by
    decide +kernel
  have oneFunction : (Document.ofSource [] documentedHeader).functions.mapM
      (fun entry => shown (.ofSource [] documentedHeader) true entry.text) =
        .ok ["// f\nint f(\"&\");".toList] := by
    decide +kernel
  obtain rfl := Except.ok.inj (oneClass.symm.trans shownClasses)
  obtain rfl := Except.ok.inj (oneFunction.symm.trans shownFunctions)
  have classLine : lines ["// A\nclass A \x7b int x; \x7d ;".toList] =
      ["[1] // A\nclass A \x7b int x; \x7d ;".toList] := by
    decide +kernel
  have functionLine : lines ["// f\nint f(\"&\");".toList] = ["[1] // f\nint f(\"&\");".toList] := by
    decide +kernel
  rw [classLine, functionLine] at shows
  exact ⟨_, body, breaks, markup, built, shownText, whole, ended, page, shows⟩

end Page

end HeaderBook
