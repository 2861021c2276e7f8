import HeaderBook.Document
import HeaderBook.Proofs.CapturedText

/-!
# Working texts and the source behind them

A working text is a sequence of items: a segment, which is what stands in the
text, together with the source tokens that the segment stands for. The passes are
followed on items, so that at every moment it is known which part of the source
each marker covers. Folding is followed step by step, and what a step does to the
items is carried to a whole run by induction.
-/

namespace HeaderBook.Source

/-- A segment of a working text and the tokens of the source that it stands for. -/
structure Item where
  segment : Segment
  covered : List Token
  deriving DecidableEq, Repr

namespace Item

/-- The characters of an item in the working text. -/
def text (item : Item) : Text :=
  item.segment.text

/-- The segment of a source character outside literals and comments. -/
def charSegment (c : Char) : Segment :=
  if c = '&' then .marker (.ofIndex .generic FragmentTable.ampersandIndex) else .plain c

/-- The items of a captured text: literals are numbered from `generic` on and runs
from `doc` on. -/
def ofTokens (generic doc : Nat) : List Token → List Item
  | [] => []
  | .char c :: rest => ⟨charSegment c, [.char c]⟩ :: ofTokens generic doc rest
  | .marker digits :: rest => ⟨.marker ⟨.generic, digits⟩, [.marker digits]⟩ :: ofTokens generic doc rest
  | .literal text :: rest =>
    ⟨.marker (.ofIndex .generic generic), [.literal text]⟩ :: ofTokens (generic + 1) doc rest
  | .comment lines :: rest =>
    ⟨.marker (.ofIndex .docComment doc), [.comment lines]⟩ :: ofTokens generic (doc + 1) rest

/-- The items of a captured text cover the source. -/
theorem flatMap_covered_ofTokens (generic doc : Nat) (tokens : List Token) :
    (ofTokens generic doc tokens).flatMap covered = tokens := by
  fun_induction ofTokens generic doc tokens <;> simp_all

/-- The segment of a character is valid. -/
theorem charSegment_valid (c : Char) : (charSegment c).Valid := by
  unfold charSegment
  split
  · exact Marker.valid_ofIndex _ _
  next plain => exact plain

end Item

/-! ### The captured text -/

/-- Text outside runs stays as it is. -/
theorem replaceRuns_others (kind : MarkerKind) (index : Nat) (text : Text) (rest : List Stretch) :
    Stretch.replaceRuns kind index (text.map .other ++ rest) =
      text ++ Stretch.replaceRuns kind index rest := by
  induction text with
  | nil => rfl
  | cons c text inductionHypothesis =>
      rw [List.map_cons, List.cons_append, Stretch.replaceRuns, inductionHypothesis]
      rfl

/-- The captured text is that of the items. -/
theorem replaceRuns_stretches (generic doc : Nat) (tokens : List Token) :
    Stretch.replaceRuns .docComment doc (Token.stretches generic (tokens.map Token.shield)) =
      (Item.ofTokens generic doc tokens).flatMap Item.text := by
  induction tokens generalizing generic doc with
  | nil => rfl
  | cons token tokens inductionHypothesis =>
      cases token with
      | char c =>
          rw [Item.ofTokens, List.flatMap_cons, ← inductionHypothesis]
          by_cases ampersand : c = '&'
          · have zero : Text.decimal FragmentTable.ampersandIndex = ['0'] := by
              simp [Text.decimal, FragmentTable.ampersandIndex, Nat.digitChar]
            simp [Token.shield, Item.charSegment, ampersand, Token.stretches, replaceRuns_others,
              Item.text, Segment.text, Marker.ofIndex, zero]
          · simp [Token.shield, Item.charSegment, ampersand, Token.stretches,
              Stretch.replaceRuns, Item.text, Segment.text]
      | marker digits =>
          rw [Item.ofTokens, List.flatMap_cons, ← inductionHypothesis]
          exact replaceRuns_others _ _ _ _
      | literal text =>
          rw [Item.ofTokens, List.flatMap_cons, ← inductionHypothesis]
          exact replaceRuns_others _ _ _ _
      | comment lines =>
          rw [Item.ofTokens, List.flatMap_cons, ← inductionHypothesis]
          rfl

/-- Text outside runs is no run. -/
theorem filterMap_run?_others (text : Text) (rest : List Stretch) :
    (text.map Stretch.other ++ rest).filterMap Stretch.run? = rest.filterMap Stretch.run? := by
  induction text with
  | nil => rfl
  | cons c text inductionHypothesis => exact inductionHypothesis

/-- The runs of a working text are the comments among its tokens. -/
theorem filterMap_run?_stretches (index : Nat) (tokens : List Token) :
    (Token.stretches index tokens).filterMap Stretch.run? =
      (tokens.filterMap Token.comment?).map List.flatten := by
  induction tokens generalizing index with
  | nil => rfl
  | cons token tokens inductionHypothesis =>
      cases token with
      | char c => exact inductionHypothesis index
      | marker digits =>
          rw [Token.stretches, filterMap_run?_others, inductionHypothesis]
          rfl
      | literal text =>
          rw [Token.stretches, filterMap_run?_others, inductionHypothesis]
          rfl
      | comment lines =>
          rw [Token.stretches]
          exact congrArg (lines.flatten :: ·) (inductionHypothesis index)

/-- Shielding a token shields its literal. -/
theorem Token.literal?_shield :
    Token.literal? ∘ Token.shield = fun token => token.literal?.map shieldAmpersands := by
  funext token
  cases token with
  | char c => by_cases ampersand : c = '&' <;> simp [Token.shield, Token.literal?, ampersand]
  | marker digits => rfl
  | literal text => rfl
  | comment lines => rfl

/-- Shielding a token shields the lines of its comment. -/
theorem Token.comment?_shield :
    Token.comment? ∘ Token.shield = fun token =>
      token.comment?.map (List.map shieldAmpersands) := by
  funext token
  cases token with
  | char c => by_cases ampersand : c = '&' <;> simp [Token.shield, Token.comment?, ampersand]
  | marker digits => rfl
  | literal text => rfl
  | comment lines => rfl

/-- The captured literals of a source, in their order. -/
def literals (source : Text) : List Text :=
  (Token.ofText source).filterMap Token.literal?

/-- The runs of comment lines of a source, in their order. -/
def runs (source : Text) : List (List Text) :=
  (Token.ofText source).filterMap Token.comment?

/-- The items of the captured text of a source. -/
def items (source : Text) : List Item :=
  Item.ofTokens 1 0 (Token.ofText source)

/-- What shielding and capturing make of a source. -/
theorem capture_source (source : Text) :
    let shielded := shield source
    shielded.2.fragments = ['&'] :: (literals source).map shieldAmpersands ∧
      captureCommentRuns shielded.1 { kind := .docComment } =
        ((items source).flatMap Item.text,
          ⟨.docComment, (runs source).map fun lines => (lines.map shieldAmpersands).flatten⟩) := by
  have text : (shield source).1 =
      Token.afterShielding 1 (Token.ofText (shieldAmpersands source)) :=
    Token.replaceShielded_ofText 1 (shieldAmpersands source)
  have stretches := Token.ofText_afterShielding 1 (shieldAmpersands source)
  have tokens := Token.ofText_shieldAmpersands source
  constructor
  · have captured : ((Lexeme.ofText (shieldAmpersands source)).filter Lexeme.isShielded).map
        Lexeme.text = (literals source).map shieldAmpersands := by
      rw [Token.filter_isShielded_ofText, tokens, literals, List.filterMap_map, List.map_filterMap,
        Token.literal?_shield]
    exact congrArg (['&'] :: ·) captured
  · have captured : (Token.stretches 1 ((Token.ofText source).map Token.shield)).filterMap
        Stretch.run? = (runs source).map fun lines => (lines.map shieldAmpersands).flatten := by
      rw [filterMap_run?_stretches, List.filterMap_map, Token.comment?_shield, runs,
        ← List.map_filterMap, List.map_map]
      rfl
    unfold captureCommentRuns
    rw [text, stretches, tokens]
    refine Prod.ext (replaceRuns_stretches 1 0 (Token.ofText source)) ?_
    exact congrArg (FragmentTable.mk .docComment) captured

end HeaderBook.Source
