import HeaderBook.CodePoint
import HeaderBook.Source.Lexeme
import HeaderBook.Source.CommentRun
import HeaderBook.Source.Block
import HeaderBook.Declaration

/-!
# Header documents

A document is everything extracted from one header: the folded text, the
fragments behind its markers, and its documented declarations. `restore` goes
back from a text with markers to source.

Only blocks hold markers that refer to other fragments, and a block holds only
blocks that were folded before it. Expanding therefore lowers the block limit
at every level, and text that merely looks like a marker is kept.

Expansions are nested: `expandWithin` has limits of its own at each level, looks a
fragment up in a table that may lack it, and stops when no level is left. `restore`
is the same without the bound and without the failing lookup.
-/

namespace HeaderBook

open Text (NumberTooLong readNumber)

/-- Everything extracted from one header. -/
structure Document where
  path : CodeText
  /-- The folded text. -/
  text : Text
  /-- The literals and block comments; the first has index 1, since 0 is the
  ampersand. -/
  literals : List Text
  /-- The runs of comment lines, from index 0. -/
  docComments : List Text
  /-- The braced blocks in closing order, from index 0. -/
  blocks : List Text
  /-- The documented statements in text order. -/
  declarations : List Declaration
  deriving DecidableEq, Repr

namespace Document

/-- The fragments of the generic markers: the ampersand and the literals. -/
def generic (document : Document) : List Text :=
  ['&'] :: document.literals

/-- The class-like declarations. -/
def classes (document : Document) : List Declaration :=
  Declaration.classes document.declarations

/-- The function-like declarations. -/
def functions (document : Document) : List Declaration :=
  Declaration.functions document.declarations

/-- Shields, captures comment runs, folds blocks and finds the declarations. -/
def build (path : CodeText) (text : Text) : Except NumberTooLong Document := do
  let (shielded, generic) := Source.shield text
  let (captured, docComments) := Source.captureCommentRuns shielded { kind := .docComment }
  let (folded, blocks) := Source.foldBlocks captured { kind := .block }
  let declarations ← Declaration.ofFolded folded
  return {
    path
    text := folded
    literals := generic.fragments.drop 1
    docComments := docComments.fragments
    blocks := blocks.fragments
    declarations }

/-- A count of what was extracted, one line. -/
def summary (document : Document) : Text :=
  let count (n : Nat) (noun : String) := Text.decimal n ++ noun.toList
  count document.literals.length " literal(s), " ++
    count document.docComments.length " doc run(s), " ++
    count document.blocks.length " block(s), " ++
    count document.classes.length " class(es), " ++
    count document.functions.length " function(s)"

/-- Why an expansion stops without a result. -/
inductive ExpansionFailure where
  /-- The number of a marker has too many digits. -/
  | number (failure : NumberTooLong)
  /-- A table holds nothing under an index. -/
  | missing (failure : MissingEntry)
  /-- More expansions would be nested than are allowed. -/
  | tooDeep
  deriving DecidableEq, Repr

/-- The fragments behind the markers of a kind. -/
def table (document : Document) : MarkerKind → FragmentTable
  | .generic => ⟨.generic, document.generic⟩
  | .docComment => ⟨.docComment, document.docComments⟩
  | .block => ⟨.block, document.blocks⟩

/-- For each kind, the number of entries that are expanded in a text in which only
the first `blocks` blocks are. -/
def limits (document : Document) (blocks : Nat) : MarkerKind → Nat
  | .generic => document.generic.length
  | .docComment => document.docComments.length
  | .block => blocks

/-- The limits for the fragments that hold no other fragment. -/
def ampersandLimits : MarkerKind → Nat
  | .generic => 1
  | .docComment => 0
  | .block => 0

/-- The limits for the fragment behind a marker. -/
def nestedLimits (document : Document) (index : Nat) : MarkerKind → MarkerKind → Nat
  | .generic => ampersandLimits
  | .docComment => ampersandLimits
  | .block => document.limits index

/-- Expands one segment. What is behind a marker within the limits goes to `nested`. -/
def expandSegment (document : Document) (limits : MarkerKind → Nat)
    (nested : (MarkerKind → Nat) → Text → Except ExpansionFailure Text) :
    Segment → Except ExpansionFailure Text
  | .plain c => .ok [c]
  | .marker found => do
    let index ← (readNumber found.digits).mapError .number
    if limits found.kind ≤ index then
      return found.text
    else
      let fragment ← ((document.table found.kind).get index).mapError .missing
      nested (document.nestedLimits index found.kind) fragment

/-- Expands a text with at most `depth` expansions nested in each other, this one
included. -/
def expandWithin (document : Document) :
    Nat → (MarkerKind → Nat) → Text → Except ExpansionFailure Text
  | 0, _, _ => .error .tooDeep
  | depth + 1, limits, text =>
    ((Segment.ofText text).mapM
      (document.expandSegment limits (document.expandWithin depth))).map List.flatten

/-- Restores the ampersands of one segment and keeps every other marker. -/
def restoreAmpersand : Segment → Except NumberTooLong Text
  | .plain c => .ok [c]
  | .marker found => do
    let index ← readNumber found.digits
    return if found.kind = .generic ∧ index = 0 then ['&'] else found.text

/-- Restores the ampersands of a fragment that holds no other fragment. -/
def restoreAmpersands (text : Text) : Except NumberTooLong Text := do
  let parts ← (Segment.ofText text).mapM restoreAmpersand
  return parts.flatten

/-- Restores a text in which only blocks with an index below `limit` are
expanded. The index of a marker is read whether or not it is in range. -/
def restoreBelow (document : Document) (limit : Nat) (text : Text) : Except NumberTooLong Text := do
  let parts ← (Segment.ofText text).mapM fun segment =>
    match segment with
    | .plain c => .ok [c]
    | .marker found => do
      let index ← readNumber found.digits
      match found.kind with
      | .generic =>
        match document.generic[index]? with
        | some fragment => restoreAmpersands fragment
        | none => .ok found.text
      | .docComment =>
        match document.docComments[index]? with
        | some fragment => restoreAmpersands fragment
        | none => .ok found.text
      | .block =>
        if _below : index < limit then
          match document.blocks[index]? with
          | some fragment => restoreBelow document index fragment
          | none => .ok found.text
        else
          .ok found.text
  return parts.flatten
termination_by limit

/-- Expands every marker of a text back into the source it replaced. Text that
looks like a marker and refers to nothing is left as it is. -/
def restore (document : Document) (text : Text) : Except NumberTooLong Text :=
  document.restoreBelow document.blocks.length text

end Document
end HeaderBook
