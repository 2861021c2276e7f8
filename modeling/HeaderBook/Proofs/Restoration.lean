import HeaderBook.Proofs.MarkerShape
import HeaderBook.Proofs.SourceDocument

/-!
# Restoring items

Four substitutions into three tables are undone by one recursive expansion. The
expansion of an item is the part of the source that the item covers, up to
`collapseZeros`: literals and runs are expanded once, and a block through the
blocks folded before it, by induction on the limit that falls at every level.

Marker-shaped text outside literals and comments is expanded like a marker, so
sources with such a token are excluded here.
-/

namespace HeaderBook.Source

open Text (isDigit digitsValue digitLimit numberLimit readNumber)

/-! ### Fragments without other fragments -/

/-- The numbers of all marker-shaped text are short enough to be read. -/
def Readable (text : Text) : Prop :=
  ∀ before digits, MarkerShaped text before digits → digits.length ≤ digitLimit

/-- Every part of a readable text is readable. -/
theorem Readable.of_append {front text back : Text} (readable : Readable (front ++ text ++ back)) :
    Readable text := by
  intro before digits shaped
  exact readable _ digits ((shaped.append_left front).append_right back)

/-- A number with few enough digits is read. -/
theorem readNumber_of_length_le {digits : Text} (short : digits.length ≤ digitLimit) :
    readNumber digits = .ok (digitsValue digits) := by
  rw [readNumber, if_neg (Nat.not_lt.mpr short)]

/-- A clean text is restored independently of what follows it. -/
theorem restoreAmpersands_append {left right first second : Text} (clean : Clean left)
    (restoredLeft : Document.restoreAmpersands left = .ok first)
    (restoredRight : Document.restoreAmpersands right = .ok second) :
    Document.restoreAmpersands (left ++ right) = .ok (first ++ second) := by
  unfold Document.restoreAmpersands at *
  rw [clean.ofText_append, List.mapM_append]
  cases leftParts : (Segment.ofText left).mapM Document.restoreAmpersand with
  | error failure => simp [leftParts, bind, Except.bind] at restoredLeft
  | ok leftParts' =>
      cases rightParts : (Segment.ofText right).mapM Document.restoreAmpersand with
      | error failure => simp [rightParts, bind, Except.bind] at restoredRight
      | ok rightParts' =>
          simp only [leftParts, rightParts, bind, Except.bind, pure, Except.pure,
            Except.ok.injEq] at restoredLeft restoredRight ⊢
          rw [← restoredLeft, ← restoredRight, List.flatten_append]

/-- A character other than an ampersand is restored as itself. -/
theorem restoreAmpersands_plain {c : Char} (plain : c ≠ '&') :
    Document.restoreAmpersands [c] = .ok [c] := by
  unfold Document.restoreAmpersands
  rw [Segment.ofText_plain plain, Segment.ofText_nil]
  rfl

/-- A marker with number zero becomes an ampersand, and any other stays. -/
theorem restoreAmpersands_marker {digits : Text} (valid : (⟨.generic, digits⟩ : Marker).Valid)
    (short : digits.length ≤ digitLimit) :
    Document.restoreAmpersands (⟨.generic, digits⟩ : Marker).text =
      .ok (if digitsValue digits = 0 then ['&'] else '&' :: (digits ++ ['.'])) := by
  have cut := Segment.ofText_marker valid []
  rw [List.append_nil, Segment.ofText_nil] at cut
  have one : Document.restoreAmpersand (.marker ⟨.generic, digits⟩) =
      .ok (if digitsValue digits = 0 then ['&'] else '&' :: (digits ++ ['.'])) := by
    simp only [Document.restoreAmpersand, readNumber_of_length_le short, true_and]
    rfl
  unfold Document.restoreAmpersands
  rw [cut, List.mapM_cons, one]
  simp [bind, Except.bind, pure, Except.pure]

theorem ofText_ampersand : Segment.ofText ['&'] = [.plain '&'] := by
  rw [Segment.ofText]
  split
  next found after read =>
    have none : Marker.read? ['&'] = none := rfl
    simp [none] at read
  next => rw [Segment.ofText_nil]

/-- The fragment of the ampersand is restored to itself. -/
theorem restoreAmpersands_ampersand : Document.restoreAmpersands ['&'] = .ok ['&'] := by
  unfold Document.restoreAmpersands
  rw [ofText_ampersand]
  rfl

/-- Restoring the ampersands of a shielded text gives the text, with marker-shaped
text of number zero collapsed. -/
theorem restoreAmpersands_shieldAmpersands {text : Text} (readable : Readable text) :
    Document.restoreAmpersands (shieldAmpersands text) = .ok (collapseZeros text) := by
  induction text using ampersand_induction with
  | nil =>
      rw [shieldAmpersands_nil, collapseZeros_nil]
      unfold Document.restoreAmpersands
      rw [Segment.ofText_nil]
      rfl
  | plain c rest ordinary inductionHypothesis =>
      have tail := inductionHypothesis fun before digits shaped =>
        readable _ digits (shaped.append_left [c])
      rw [shieldAmpersands_cons_of_ne ordinary, collapseZeros_plain ordinary]
      exact restoreAmpersands_append (.plain ordinary) (restoreAmpersands_plain ordinary) tail
  | marker digits after valid inductionHypothesis =>
      have tail := inductionHypothesis fun before digits' shaped => by
        have whole := shaped.append_left ('&' :: (digits ++ ['.']))
        rw [List.cons_append, List.append_assoc] at whole
        exact readable _ digits' whole
      rw [shieldAmpersands_marker valid, collapseZeros_marker valid]
      have short := readable [] digits ⟨valid, after, rfl⟩
      exact restoreAmpersands_append (.marker valid) (restoreAmpersands_marker valid short) tail
  | bare rest closed inductionHypothesis =>
      have tail := inductionHypothesis fun before digits shaped =>
        readable _ digits (shaped.append_left ['&'])
      have ampersand := restoreAmpersands_marker Marker.valid_zero (by decide)
      rw [if_pos (by decide)] at ampersand
      rw [shieldAmpersands_of_not_opens closed, collapseZeros_bare closed]
      exact restoreAmpersands_append (.marker Marker.valid_zero) ampersand tail

/-- The lines of a run are restored one by one. -/
theorem restoreAmpersands_lines {lines : List Text} (readable : ∀ line ∈ lines, Readable line) :
    Document.restoreAmpersands (lines.map shieldAmpersands).flatten =
      .ok (lines.map collapseZeros).flatten := by
  induction lines with
  | nil =>
      unfold Document.restoreAmpersands
      rw [List.map_nil, List.flatten_nil, Segment.ofText_nil]
      rfl
  | cons line lines inductionHypothesis =>
      have first := restoreAmpersands_shieldAmpersands (readable line (by simp))
      have later := inductionHypothesis fun other member => readable other (by simp [member])
      rw [List.map_cons, List.flatten_cons, List.map_cons, List.flatten_cons]
      exact restoreAmpersands_append (clean_shieldAmpersands line) first later

/-! ### What comes back for a token -/

/-- The text that is restored for a token. -/
def Token.restored : Token → Text
  | .comment lines => (lines.map collapseZeros).flatten
  | token => collapseZeros token.text

/-- A comment line is restored alike on its own and in a run. -/
theorem Token.flatMap_restored_joinRun (line : Text) (tokens : List Token) :
    (joinRun line tokens).flatMap restored = collapseZeros line ++ tokens.flatMap restored := by
  unfold joinRun
  split
  · simp [restored]
  · simp [restored]

/-- No marker-shaped text reaches out of a literal or a block comment. -/
theorem Lexeme.boundary_of_next {c : Char} {rest after : Text} {lexeme : Lexeme}
    (step : Lexeme.next c rest = (lexeme, after)) (captured : lexeme.isShielded = true) :
    Boundary lexeme.text after := by
  have cut := Lexeme.cut_next c rest
  rw [step] at cut
  cases cut with
  | lineComment => simp [Lexeme.isShielded] at captured
  | blockComment found =>
      obtain ⟨inner, rfl⟩ := Lexeme.exists_concat_of_blockRest? found
      have boundary := Boundary.of_inner (c := '/') (by decide) (by decide) List.not_mem_nil
        ('/' :: '*' :: (inner ++ ['*'])) after
      simpa [Lexeme.text] using boundary
  | stringLiteral found =>
      obtain ⟨inner, rfl⟩ := Lexeme.exists_concat_of_literalRest? found
      exact .of_inner (by decide) (by decide) List.not_mem_nil ('"' :: inner) after
  | charLiteral found =>
      obtain ⟨inner, rfl⟩ := Lexeme.exists_concat_of_literalRest? found
      exact .of_inner (by decide) (by decide) List.not_mem_nil ('\'' :: inner) after
  | other => simp [Lexeme.isShielded] at captured

/-- Zeros are collapsed token by token. -/
theorem Token.flatMap_restored_ofText (source : Text) :
    (ofText source).flatMap restored = collapseZeros source := by
  induction source using Token.induction with
  | nil => simp
  | line body after oneLine ends inductionHypothesis =>
      have whole : '/' :: '/' :: (body ++ after) =
          ('/' :: '/' :: (body ++ (lineEnd after).1)) ++ (lineEnd after).2 := by
        simp [append_lineEnd]
      have boundary := boundary_lineEnd ('/' :: '/' :: body) ends
      rw [ofText_line oneLine ends, flatMap_restored_joinRun, inductionHypothesis, whole]
      exact (collapseZeros_append boundary).symm
  | marker digits after valid inductionHypothesis =>
      have alone := collapseZeros_marker valid []
      rw [ofText_marker valid, List.flatMap_cons, inductionHypothesis, collapseZeros_marker valid]
      rw [collapseZeros_nil, List.append_nil] at alone
      rw [← alone]
      rfl
  | char c rest step _ closed inductionHypothesis =>
      rw [ofText_char step closed, List.flatMap_cons, inductionHypothesis]
      by_cases ampersand : c = '&'
      · subst ampersand
        rw [collapseZeros_bare (closed rfl), restored, text, collapseZeros_bare rfl]
        · simp
        · simp
      · rw [collapseZeros_plain ampersand, restored, text, collapseZeros_plain ampersand]
        · simp
        · simp
  | literal c rest lexeme after step captured inductionHypothesis =>
      have whole := Lexeme.text_next_append c rest
      have boundary := Lexeme.boundary_of_next step captured
      rw [step] at whole
      rw [ofText_literal step captured, List.flatMap_cons, inductionHypothesis, ← whole]
      exact (collapseZeros_append boundary).symm

/-- A token is a part of the source. -/
theorem Token.exists_append_of_mem {source : Text} {token : Token} (member : token ∈ ofText source) :
    ∃ front back, source = front ++ token.text ++ back := by
  obtain ⟨left, right, split⟩ := List.append_of_mem member
  refine ⟨left.flatMap text, right.flatMap text, ?_⟩
  rw [← flatMap_text_ofText source, split, List.flatMap_append, List.flatMap_cons,
    List.append_assoc]

/-- A line of a run is a part of the source. -/
theorem Token.exists_append_of_mem_lines {source : Text} {lines : List Text}
    (member : .comment lines ∈ ofText source) {line : Text} (inside : line ∈ lines) :
    ∃ front back, source = front ++ line ++ back := by
  obtain ⟨front, back, whole⟩ := exists_append_of_mem member
  obtain ⟨left, right, rfl⟩ := List.append_of_mem inside
  refine ⟨front ++ left.flatten, right.flatten ++ back, ?_⟩
  rw [whole, text, List.flatten_append, List.flatten_cons]
  simp only [List.append_assoc]

/-- Every token of a readable source is readable. -/
theorem Token.readable_of_mem {source : Text} (readable : Readable source) {token : Token}
    (member : token ∈ ofText source) : Readable token.text := by
  obtain ⟨front, back, rfl⟩ := exists_append_of_mem member
  exact readable.of_append

/-- Every comment line of a readable source is readable. -/
theorem Token.readable_of_mem_lines {source : Text} (readable : Readable source)
    {lines : List Text} (member : .comment lines ∈ ofText source) {line : Text}
    (inside : line ∈ lines) : Readable line := by
  obtain ⟨front, back, rfl⟩ := exists_append_of_mem_lines member inside
  exact readable.of_append

/-- Every literal of the table is a token of the source. -/
theorem Token.literal_mem_ofText {source text : Text} {position : Nat}
    (found : (literals source)[position]? = some text) : .literal text ∈ ofText source := by
  obtain ⟨token, member, selected⟩ := List.mem_filterMap.mp (List.mem_of_getElem? found)
  cases token with
  | literal text' => rwa [← Option.some.inj selected]
  | char c => simp [literal?] at selected
  | marker digits => simp [literal?] at selected
  | comment lines => simp [literal?] at selected

/-- Every run of the table is a token of the source. -/
theorem Token.comment_mem_ofText {source : Text} {lines : List Text} {position : Nat}
    (found : (runs source)[position]? = some lines) : .comment lines ∈ ofText source := by
  obtain ⟨token, member, selected⟩ := List.mem_filterMap.mp (List.mem_of_getElem? found)
  cases token with
  | comment lines' => rwa [← Option.some.inj selected]
  | char c => simp [comment?] at selected
  | marker digits => simp [comment?] at selected
  | literal text => simp [comment?] at selected

/-! ### Sources without marker-shaped text -/

/-- Marker-shaped text outside literals and comments stands where its token does. -/
theorem Token.markerShaped_of_split {source digits : Text} {left right : List Token}
    (split : ofText source = left ++ .marker digits :: right) :
    MarkerShaped source (left.flatMap text) digits := by
  refine ⟨valid_of_marker_mem (by rw [split]; simp), right.flatMap text, ?_⟩
  rw [← flatMap_text_ofText source, split, List.flatMap_append, List.flatMap_cons]
  simp [text, Marker.text, MarkerKind.opening, MarkerKind.closing]

/-- There is no number to read in an unmarked text. -/
theorem Unmarked.readable {text : Text} (unmarked : Unmarked text) : Readable text :=
  fun before digits shaped => absurd shaped (unmarked before digits)

/-- An unmarked source has no marker token. -/
theorem Unmarked.marker_not_mem {source : Text} (unmarked : Unmarked source) (digits : Text) :
    .marker digits ∉ Token.ofText source := by
  intro member
  obtain ⟨left, right, split⟩ := List.append_of_mem member
  exact unmarked _ digits (Token.markerShaped_of_split split)

/-- Every token comes back as it is. -/
theorem Unmarked.restored_eq_text {source : Text} (unmarked : Unmarked source) {token : Token}
    (member : token ∈ Token.ofText source) : token.restored = token.text := by
  have whole : collapseZeros token.text = token.text := by
    obtain ⟨front, back, rfl⟩ := Token.exists_append_of_mem member
    exact unmarked.of_append.collapseZeros_eq
  cases token with
  | char c => exact whole
  | marker digits => exact whole
  | literal text => exact whole
  | comment lines =>
      have each : ∀ line ∈ lines, collapseZeros line = line := by
        intro line inside
        obtain ⟨front, back, rfl⟩ := Token.exists_append_of_mem_lines member inside
        exact unmarked.of_append.collapseZeros_eq
      rw [Token.restored, Token.text, List.map_congr_left each, List.map_id']

end HeaderBook.Source

namespace HeaderBook.Document

open Source Text

/-- One segment of a text in which only blocks below `limit` are expanded. -/
def restoreSegment (document : Document) (limit : Nat) :
    Segment → Except NumberTooLong Text
  | .plain c => .ok [c]
  | .marker found => do
    let index ← readNumber found.digits
    match found.kind with
    | .generic =>
      match document.generic[index]? with
      | some fragment => restoreAmpersands fragment
      | none => .ok found.text
    | .docComment =>
      match document.docComments[index]? with
      | some fragment => restoreAmpersands fragment
      | none => .ok found.text
    | .block =>
      if index < limit then
        match document.blocks[index]? with
        | some fragment => document.restoreBelow index fragment
        | none => .ok found.text
      else
        .ok found.text

/-- A text is restored segment by segment. -/
theorem restoreBelow_eq (document : Document) (limit : Nat) (text : Text) :
    document.restoreBelow limit text =
      ((Segment.ofText text).mapM (document.restoreSegment limit)).map List.flatten := by
  have same : ∀ parts : Except NumberTooLong (List Text),
      (do let parts ← parts; return parts.flatten) = parts.map List.flatten := by
    intro parts
    cases parts with
    | error failure => rfl
    | ok parts => rfl
  rw [restoreBelow, same]
  rfl

/-- A marker with a written index is restored by looking the index up. -/
theorem yields_restoreSegment (document : Document) (limit : Nat) {kind : MarkerKind}
    {index size : Nat} (inside : index ≤ size) {expected : Text}
    (restored : Yields size
      (match kind with
      | .generic =>
        match document.generic[index]? with
        | some fragment => restoreAmpersands fragment
        | none => .ok (Marker.ofIndex kind index).text
      | .docComment =>
        match document.docComments[index]? with
        | some fragment => restoreAmpersands fragment
        | none => .ok (Marker.ofIndex kind index).text
      | .block =>
        if index < limit then
          match document.blocks[index]? with
          | some fragment => document.restoreBelow index fragment
          | none => .ok (Marker.ofIndex kind index).text
        else
          .ok (Marker.ofIndex kind index).text) expected) :
    Yields size (document.restoreSegment limit (.marker (.ofIndex kind index))) expected :=
  (yields_readNumber inside).bind restored

/-! ### The entries of a source -/

section

variable (path : CodeText) {source : Text} (declarations : List Declaration)

/-- The literals of a source are in the generic table, behind the ampersand. -/
theorem generic_withDeclarations {position : Nat} {text : Text}
    (found : (Source.literals source)[position]? = some text) :
    (withDeclarations path source declarations).generic[1 + position]? =
        some (shieldAmpersands text) ∧
      1 + position ≤ source.length := by
  have below := (List.getElem?_eq_some_iff.mp found).1
  have bound := length_literals_le source
  refine ⟨?_, by omega⟩
  rw [generic, Nat.add_comm, List.getElem?_cons_succ]
  simp [withDeclarations, found]

/-- The runs of a source are in the table of comments. -/
theorem docComments_withDeclarations {position : Nat} {lines : List Text}
    (found : (runs source)[position]? = some lines) :
    (withDeclarations path source declarations).docComments[0 + position]? =
        some (lines.map shieldAmpersands).flatten ∧
      0 + position ≤ source.length := by
  have below := (List.getElem?_eq_some_iff.mp found).1
  have bound := length_runs_le source
  refine ⟨?_, by omega⟩
  rw [Nat.zero_add]
  simp [withDeclarations, found]

/-- The folded bodies are in the table of blocks. -/
theorem blocks_withDeclarations {index : Nat} {body : List Item}
    (found : (folding source).blocks[index]? = some body) :
    (withDeclarations path source declarations).blocks[index]? = some (body.flatMap Item.text) ∧
      index ≤ source.length := by
  have below := (List.getElem?_eq_some_iff.mp found).1
  have bound := length_blocks_le source
  refine ⟨?_, by omega⟩
  simp [withDeclarations, found]

end

/-- The text of items is cut into their segments. -/
theorem ofText_items {folded : List Item} (valid : ∀ item ∈ folded, item.segment.Valid) :
    Segment.ofText (folded.flatMap Item.text) = folded.map Item.segment := by
  have segments : ∀ segment ∈ folded.map Item.segment, segment.Valid := by
    intro segment member
    obtain ⟨item, inside, rfl⟩ := List.mem_map.mp member
    exact valid item inside
  have pieces := Segment.ofText_flatMap_append segments []
  rw [List.append_nil, Segment.ofText_nil, List.append_nil, List.flatMap_map] at pieces
  exact pieces

section

variable {path : CodeText} {source : Text} {declarations : List Declaration}
  (readable : Readable source) (unmarked : ∀ digits, .marker digits ∉ Token.ofText source)

include readable unmarked

/-- An item that folding did not make is restored to what it covers. -/
theorem yields_restoreSegment_leaf {item : Item} (member : item ∈ items source) (limit : Nat) :
    Yields source.length
      ((withDeclarations path source declarations).restoreSegment limit item.segment)
      (item.covered.flatMap Token.restored) := by
  cases Item.leaf_of_mem_ofTokens member with
  | @char c _ =>
      by_cases ampersand : c = '&'
      · subst ampersand
        have kept : Token.restored (.char '&') = ['&'] := by
          rw [Token.restored, Token.text, collapseZeros_bare rfl, collapseZeros_nil]
          simp
        rw [Item.charSegment, if_pos rfl, List.flatMap_singleton, kept]
        exact yields_restoreSegment _ _ (Nat.zero_le _) (.inl restoreAmpersands_ampersand)
      · rw [Item.charSegment, if_neg ampersand]
        refine .inl ?_
        simp [restoreSegment, Token.restored, Token.text, collapseZeros_plain ampersand]
  | @marker digits inside => exact absurd inside (unmarked digits)
  | @literal position text found =>
      have token := Token.literal_mem_ofText found
      obtain ⟨fragment, inside⟩ := generic_withDeclarations path declarations found
      rw [List.flatMap_singleton]
      refine yields_restoreSegment _ _ inside ?_
      rw [fragment]
      exact .inl (restoreAmpersands_shieldAmpersands (Token.readable_of_mem readable token))
  | @comment position lines found =>
      have token := Token.comment_mem_ofText found
      obtain ⟨fragment, inside⟩ := docComments_withDeclarations path declarations found
      rw [List.flatMap_singleton]
      refine yields_restoreSegment _ _ inside ?_
      rw [fragment]
      exact .inl (restoreAmpersands_lines fun _ => Token.readable_of_mem_lines readable token)

/-- Items are restored to what they cover. The limit falls at every level, and a
block holds only blocks below its own index. -/
theorem yields_restoreBelow {limit : Nat} {folded : List Item}
    (origin : ∀ item ∈ folded,
      ItemFolding.Origin (items source) (folding source).blocks limit item) :
    Yields source.length
      ((withDeclarations path source declarations).restoreBelow limit (folded.flatMap Item.text))
      ((folded.flatMap Item.covered).flatMap Token.restored) := by
  induction limit using Nat.strongRecOn generalizing folded with
  | _ limit inductionHypothesis =>
      have each : ∀ item ∈ folded, Yields source.length
          ((withDeclarations path source declarations).restoreSegment limit item.segment)
          (item.covered.flatMap Token.restored) := by
        intro item member
        rcases origin item member with leaf | ⟨index, body, below, found, rfl⟩
        · exact yields_restoreSegment_leaf readable unmarked leaf limit
        · obtain ⟨fragment, inside⟩ := blocks_withDeclarations path declarations found
          refine yields_restoreSegment _ _ inside ?_
          rw [fragment]
          simp only [if_pos below]
          exact inductionHypothesis index below fun item member => origin_of_mem_block found member
      have cut := ofText_items fun item member => (origin item member).valid
      rw [restoreBelow_eq, cut, List.mapM_map, List.flatMap_assoc]
      exact (Yields.mapM each).map List.flatten

/-- Every part of the folded text is restored to what its items cover, unless an index
is too long. -/
theorem yields_restore {folded : List Item} (inside : ∀ item ∈ folded, item ∈ (folding source).finish) :
    Yields source.length
      ((withDeclarations path source declarations).restore (folded.flatMap Item.text))
      ((folded.flatMap Item.covered).flatMap Token.restored) := by
  have size : (withDeclarations path source declarations).blocks.length =
      (folding source).blocks.length := by
    simp [withDeclarations]
  rw [restore, size]
  exact yields_restoreBelow readable unmarked fun item member =>
    origin_of_mem_finish (inside item member)

end

/-- Every part of the folded text of a source below `numberLimit` is restored to what
its items cover. -/
theorem restore_items {path : CodeText} {source : Text} {declarations : List Declaration}
    (short : source.length < numberLimit) (readable : Readable source)
    (unmarked : ∀ digits, .marker digits ∉ Token.ofText source) {folded : List Item}
    (inside : ∀ item ∈ folded, item ∈ (folding source).finish) :
    (withDeclarations path source declarations).restore (folded.flatMap Item.text) =
      .ok ((folded.flatMap Item.covered).flatMap Token.restored) :=
  (yields_restore readable unmarked inside).ok short

end HeaderBook.Document
