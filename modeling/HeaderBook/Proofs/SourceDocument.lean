import HeaderBook.Proofs.Outcome
import HeaderBook.Proofs.BlockFolding
import HeaderBook.Proofs.StatementScan

/-!
# The document of a source

`Document.ofSource` is the document read off the tokens of a source. It is what
`Document.build` gives for every source shorter than `numberLimit`; a longer one
may have so many runs that the index of an entry cannot be read.
-/

namespace HeaderBook.Source

open Text (numberLimit)

/-! ### The items of a captured text -/

/-- What an item of a captured text can be. Literals are numbered from `generic` on
and runs from `doc` on. -/
inductive Item.Leaf (generic doc : Nat) (tokens : List Token) : Item → Prop where
  | char {c : Char} (member : .char c ∈ tokens) : Leaf generic doc tokens ⟨charSegment c, [.char c]⟩
  | marker {digits : Text} (member : .marker digits ∈ tokens) :
      Leaf generic doc tokens ⟨.marker ⟨.generic, digits⟩, [.marker digits]⟩
  | literal {position : Nat} {text : Text}
      (found : (tokens.filterMap Token.literal?)[position]? = some text) :
      Leaf generic doc tokens ⟨.marker (.ofIndex .generic (generic + position)), [.literal text]⟩
  | comment {position : Nat} {lines : List Text}
      (found : (tokens.filterMap Token.comment?)[position]? = some lines) :
      Leaf generic doc tokens ⟨.marker (.ofIndex .docComment (doc + position)), [.comment lines]⟩

/-- A token in front moves the numbers of what follows it. -/
theorem Item.Leaf.cons {generic doc : Nat} {token : Token} {tokens : List Token} {item : Item}
    (leaf : Leaf (generic + token.literal?.toList.length) (doc + token.comment?.toList.length)
      tokens item) :
    Leaf generic doc (token :: tokens) item := by
  have shift : ∀ {β : Type} (select : Token → Option β) (position : Nat),
      ((token :: tokens).filterMap select)[(select token).toList.length + position]? =
        (tokens.filterMap select)[position]? := by
    intro β select position
    cases selected : select token <;> simp [selected, Nat.add_comm]
  cases leaf with
  | char member => exact .char (List.mem_cons_of_mem _ member)
  | marker member => exact .marker (List.mem_cons_of_mem _ member)
  | literal found =>
      rw [Nat.add_assoc]
      exact .literal ((shift Token.literal? _).trans found)
  | comment found =>
      rw [Nat.add_assoc]
      exact .comment ((shift Token.comment? _).trans found)

/-- The items of a source are leaves: characters, markers of the source, and entries. -/
theorem Item.leaf_of_mem_ofTokens {generic doc : Nat} {tokens : List Token} {item : Item}
    (member : item ∈ Item.ofTokens generic doc tokens) : Leaf generic doc tokens item := by
  induction tokens generalizing generic doc with
  | nil => simp [Item.ofTokens] at member
  | cons token tokens inductionHypothesis =>
      cases token with
      | char c =>
          rcases List.mem_cons.mp member with rfl | later
          · exact .char List.mem_cons_self
          · exact .cons (inductionHypothesis later)
      | marker digits =>
          rcases List.mem_cons.mp member with rfl | later
          · exact .marker List.mem_cons_self
          · exact .cons (inductionHypothesis later)
      | literal text =>
          rcases List.mem_cons.mp member with rfl | later
          · have found : ((.literal text :: tokens).filterMap Token.literal?)[0]? = some text := rfl
            exact .literal found
          · exact .cons (inductionHypothesis later)
      | comment lines =>
          rcases List.mem_cons.mp member with rfl | later
          · have found : ((.comment lines :: tokens).filterMap Token.comment?)[0]? = some lines := rfl
            exact .comment found
          · exact .cons (inductionHypothesis later)

/-- Joining a comment line to a run makes comments only. -/
theorem Token.mem_joinRun {line : Text} {tokens : List Token} {token : Token}
    (member : token ∈ joinRun line tokens) : token ∈ tokens ∨ ∃ lines, token = .comment lines := by
  unfold joinRun at member
  split at member
  · rcases List.mem_cons.mp member with rfl | later
    · exact .inr ⟨_, rfl⟩
    · exact .inl (List.mem_cons_of_mem _ later)
  · rcases List.mem_cons.mp member with rfl | later
    · exact .inr ⟨_, rfl⟩
    · exact .inl later

/-- Text of a source that looks like a marker is a marker. -/
theorem Token.valid_of_marker_mem {source digits : Text} (member : .marker digits ∈ ofText source) :
    (⟨.generic, digits⟩ : Marker).Valid := by
  induction source using Token.induction with
  | nil => simp at member
  | line body after oneLine ends inductionHypothesis =>
      rw [ofText_line oneLine ends] at member
      rcases mem_joinRun member with inside | ⟨lines, equal⟩
      · exact inductionHypothesis inside
      · simp at equal
  | marker digits' after valid inductionHypothesis =>
      rw [ofText_marker valid] at member
      rcases List.mem_cons.mp member with equal | later
      · rw [Token.marker.inj equal]
        exact valid
      · exact inductionHypothesis later
  | char c rest step _ closed inductionHypothesis =>
      rw [ofText_char step closed] at member
      rcases List.mem_cons.mp member with equal | later
      · simp at equal
      · exact inductionHypothesis later
  | literal c rest lexeme after step captured inductionHypothesis =>
      rw [ofText_literal step captured] at member
      rcases List.mem_cons.mp member with equal | later
      · simp at equal
      · exact inductionHypothesis later

/-- A source has at least as many characters as tokens. -/
theorem Token.length_ofText_le (source : Text) : (ofText source).length ≤ source.length := by
  have joined : ∀ line tokens, (joinRun line tokens).length ≤ tokens.length + 1 := by
    intro line tokens
    unfold joinRun
    split <;> simp
  induction source using Token.induction with
  | nil => simp
  | line body after oneLine ends inductionHypothesis =>
      rw [ofText_line oneLine ends]
      have bound := joined ('/' :: '/' :: (body ++ (lineEnd after).1)) (ofText (lineEnd after).2)
      have rest := length_lineEnd_le after
      simp only [List.length_cons, List.length_append]
      omega
  | marker digits after valid inductionHypothesis =>
      rw [ofText_marker valid]
      simp only [List.length_cons, List.length_append]
      omega
  | char c rest step _ closed inductionHypothesis =>
      rw [ofText_char step closed]
      simp only [List.length_cons]
      omega
  | literal c rest lexeme after step captured inductionHypothesis =>
      have bound : after.length ≤ rest.length := by
        have next := Lexeme.length_next_le c rest
        rwa [step] at next
      rw [ofText_literal step captured]
      simp only [List.length_cons]
      omega

/-- There are no more literals than characters. -/
theorem length_literals_le (source : Text) : (literals source).length ≤ source.length :=
  Nat.le_trans (List.length_filterMap_le _ _) (Token.length_ofText_le source)

/-- There are no more runs than characters. -/
theorem length_runs_le (source : Text) : (runs source).length ≤ source.length :=
  Nat.le_trans (List.length_filterMap_le _ _) (Token.length_ofText_le source)

/-- There are no more items than characters. -/
theorem length_items_le (source : Text) : (items source).length ≤ source.length := by
  have same : ∀ generic doc tokens, (Item.ofTokens generic doc tokens).length = tokens.length := by
    intro generic doc tokens
    fun_induction Item.ofTokens generic doc tokens <;> simp_all
  rw [items, same]
  exact Token.length_ofText_le source

/-- The items of a captured text can be cut apart again. -/
theorem valid_of_mem_items {source : Text} {item : Item} (member : item ∈ items source) :
    item.segment.Valid := by
  cases Item.leaf_of_mem_ofTokens member with
  | char _ => exact Item.charSegment_valid _
  | marker inside => exact Token.valid_of_marker_mem inside
  | literal _ => exact Marker.valid_ofIndex _ _
  | comment _ => exact Marker.valid_ofIndex _ _

/-! ### The folded items -/

/-- The folding pass on the items of a source. -/
def folding (source : Text) : ItemFolding :=
  .run (items source)

/-- The folded items cover the whole source. -/
theorem covered_finish (source : Text) :
    (folding source).finish.flatMap Item.covered = Token.ofText source := by
  rw [folding, ItemFolding.flatMap_covered_finish, items, Item.flatMap_covered_ofTokens]

/-- There are no more blocks than characters. -/
theorem length_blocks_le (source : Text) : (folding source).blocks.length ≤ source.length :=
  Nat.le_trans (ItemFolding.length_blocks_le (items source)) (length_items_le source)

/-- What is behind an item of the folded text or of a block. -/
theorem ItemFolding.Origin.valid {source : Text} {blocks : List (List Item)} {limit : Nat}
    {item : Item} (origin : Origin (items source) blocks limit item) : item.segment.Valid := by
  rcases origin with member | ⟨index, body, _, _, rfl⟩
  · exact valid_of_mem_items member
  · exact Marker.valid_ofIndex _ _

/-- Every item of the folded text comes from the source or is a folded block. -/
theorem origin_of_mem_finish {source : Text} {item : Item} (member : item ∈ (folding source).finish) :
    ItemFolding.Origin (items source) (folding source).blocks (folding source).blocks.length item := by
  obtain ⟨buffer, inside, found⟩ := List.mem_flatten.mp member
  exact (ItemFolding.sound_run (items source)).buffers buffer (List.mem_reverse.mp inside) item found

/-- Every item of a block comes from the source or is a block folded before it. -/
theorem origin_of_mem_block {source : Text} {index : Nat} {body : List Item} {item : Item}
    (found : (folding source).blocks[index]? = some body) (member : item ∈ body) :
    ItemFolding.Origin (items source) (folding source).blocks index item :=
  (ItemFolding.sound_run (items source)).blocks index body found item member

/-- Every segment of the folded text is valid. -/
theorem valid_of_mem_finish {source : Text} {item : Item} (member : item ∈ (folding source).finish) :
    item.segment.Valid :=
  (origin_of_mem_finish member).valid

/-- The index of a run's marker tells which run of the source it stands for. -/
theorem exists_run_of_isRun {source : Text} {item : Item} (member : item ∈ (folding source).finish)
    (isRun : item.isRun = true) :
    ∃ position lines, (runs source)[position]? = some lines ∧
      item = ⟨.marker (.ofIndex .docComment position), [.comment lines]⟩ := by
  rcases origin_of_mem_finish member with leaf | ⟨index, body, _, _, rfl⟩
  · cases Item.leaf_of_mem_ofTokens leaf with
    | @char c _ =>
        by_cases ampersand : c = '&'
        · simp [Item.isRun, Item.kind?, Item.charSegment, ampersand] at isRun
        · simp [Item.isRun, Item.kind?, Item.charSegment, ampersand] at isRun
    | marker _ => simp [Item.isRun, Item.kind?] at isRun
    | literal _ => simp [Item.isRun, Item.kind?] at isRun
    | comment found => exact ⟨_, _, found, by simp⟩
  · simp [Item.isRun, Item.kind?, Item.block] at isRun

/-! ### The entries -/

/-- The declaration of an entry. -/
def Entry.declaration (entry : Entry) : Declaration :=
  { kind := entry.found.kind
    text := entry.items.flatMap Item.text
    docIndex := Text.digitsValue entry.run.digits }

end HeaderBook.Source

namespace HeaderBook

open Source

namespace Document

/-- The document of a source with given declarations. -/
def withDeclarations (path : CodeText) (source : Text) (declarations : List Declaration) : Document :=
  { path
    text := (folding source).finish.flatMap Item.text
    literals := (Source.literals source).map shieldAmpersands
    docComments := (runs source).map fun lines => (lines.map shieldAmpersands).flatten
    blocks := (folding source).blocks.map (List.flatMap Item.text)
    declarations }

/-- The document of a source. -/
def ofSource (path : CodeText) (source : Text) : Document :=
  withDeclarations path source ((entries (folding source).finish).map Entry.declaration)

/-- Building gives the parts of the source, unless an entry's index is too long. -/
theorem build_eq (path : CodeText) (source : Text) :
    build path source =
      (Declaration.ofFolded ((folding source).finish.flatMap Item.text)).map
        (withDeclarations path source) := by
  obtain ⟨generic, captured⟩ := capture_source source
  have valid : ∀ item ∈ items source, item.segment.Valid := fun item => valid_of_mem_items
  have folded := ItemFolding.foldBlocks_items valid
  unfold build
  simp only [captured, folded, generic]
  rw [show ItemFolding.run (items source) = folding source from rfl]
  cases Declaration.ofFolded ((folding source).finish.flatMap Item.text) with
  | error failure => rfl
  | ok declarations => rfl

/-- The index of an entry is read, unless it is too long. -/
theorem yields_declaration {source : Text} {entry : Source.Entry}
    (member : entry ∈ entries (folding source).finish) :
    Text.Yields source.length entry.found.declaration entry.declaration := by
  have stands := standsIn_of_mem_entries member
  obtain ⟨before, place⟩ := stands.place
  have member : entry.run ∈ (folding source).finish := by rw [place]; simp
  obtain ⟨position, lines, found, run⟩ := exists_run_of_isRun member stands.isRun
  have inside : position ≤ source.length := by
    have below := (List.getElem?_eq_some_iff.mp found).1
    have bound := length_runs_le source
    omega
  have digits : entry.found.digits = Text.decimal position := by rw [Entry.found, run]; rfl
  have index : Text.digitsValue entry.run.digits = position := by
    rw [run]
    exact Text.digitsValue_decimal position
  have text := stands.text_found fun item inside => valid_of_mem_finish inside
  unfold Declaration.Found.declaration
  rw [digits, text, Entry.declaration, index]
  exact (Text.yields_readNumber inside).bind (.inl rfl)

/-- Building gives the document of the source, unless an index is too long. -/
theorem yields_build (path : CodeText) (source : Text) :
    Text.Yields source.length (build path source) (ofSource path source) := by
  have all : Text.Yields source.length
      (Declaration.ofFolded ((folding source).finish.flatMap Item.text))
      ((entries (folding source).finish).map Entry.declaration) := by
    unfold Declaration.ofFolded
    rw [found_items fun item member => valid_of_mem_finish member, List.mapM_map]
    exact .mapM fun entry member => yields_declaration member
  rw [build_eq]
  exact all.map (withDeclarations path source)

/-- Every source shorter than `numberLimit` has a document. -/
theorem build_eq_ok (path : CodeText) {source : Text} (short : source.length < Text.numberLimit) :
    build path source = .ok (ofSource path source) :=
  (yields_build path source).ok short

end Document

end HeaderBook
