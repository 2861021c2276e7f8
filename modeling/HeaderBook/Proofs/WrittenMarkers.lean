import Mathlib.Data.List.Forall2
import HeaderBook.Proofs.MarkerScan

/-!
# Finding markers where they were written

A working text is put together from pieces: markers, and stretches of text between them in
which no ampersand stands. The stretches may hold anything else, such as digits or a closing
character that would go with a marker beside them. A scan of the text finds the markers that
were written and nothing more, each at its own place, and reads their kinds and indices back.
-/

namespace HeaderBook

open Text (numberLimit readNumber)

/-- The short name of a kind is its own. -/
theorem MarkerKind.ofGroup?_group (kind : MarkerKind) : ofGroup? kind.group = some kind := by
  cases kind with
  | generic => rfl
  | docComment => decide
  | block => decide

/-- A piece of a text that is put together. -/
inductive Piece where
  | stretch (text : Text)
  | marker (kind : MarkerKind) (index : Nat)
  deriving DecidableEq, Repr

namespace Piece

/-- The characters of a piece. -/
def text : Piece → Text
  | .stretch text => text
  | .marker kind index => kind.format index

/-- A stretch holds no ampersand, and the index of a marker is short enough to be read. -/
def Fits : Piece → Prop
  | .stretch text => '&' ∉ text
  | .marker _ index => index < numberLimit

/-- The segments that a piece is to be cut into. -/
def segments : Piece → List Segment
  | .stretch text => text.map .plain
  | .marker kind index => [.marker (.ofIndex kind index)]

/-- The segments of a piece have its text. -/
theorem flatMap_text_segments (piece : Piece) : piece.segments.flatMap Segment.text = piece.text := by
  cases piece with
  | stretch text =>
      rw [segments, List.flatMap_map]
      exact List.flatMap_singleton' text
  | marker kind index => exact List.append_nil _

/-- A piece that fits has valid segments. -/
theorem Fits.valid {piece : Piece} (fits : piece.Fits) :
    ∀ segment ∈ piece.segments, segment.Valid := by
  intro segment member
  cases piece with
  | stretch text =>
      obtain ⟨c, inside, rfl⟩ := List.mem_map.mp member
      rintro rfl
      exact fits inside
  | marker kind index =>
      obtain rfl := List.mem_singleton.mp member
      exact Marker.valid_ofIndex kind index

variable {pieces : List Piece}

/-- Cutting a text that was put together gives the segments of its pieces. -/
theorem ofText_flatMap_text (fits : ∀ piece ∈ pieces, piece.Fits) :
    Segment.ofText (pieces.flatMap text) = pieces.flatMap segments := by
  have valid : ∀ segment ∈ pieces.flatMap segments, segment.Valid := by
    intro segment member
    obtain ⟨piece, among, inside⟩ := List.mem_flatMap.mp member
    exact (fits piece among).valid segment inside
  have written : (pieces.flatMap segments).flatMap Segment.text = pieces.flatMap text := by
    rw [List.flatMap_assoc]
    exact congrArg pieces.flatMap (funext flatMap_text_segments)
  have cut := Segment.ofText_flatMap_append valid []
  rwa [List.append_nil, written, Segment.ofText_nil, List.append_nil] at cut

/-- A marker that was written, with the position of its first character and the position
after its last. -/
structure Place where
  kind : MarkerKind
  index : Nat
  start : Nat
  stop : Nat
  deriving DecidableEq, Repr

/-- The markers among `pieces`, with positions counted from `start`. -/
def placesFrom (start : Nat) : List Piece → List Place
  | [] => []
  | .stretch text :: rest => placesFrom (start + text.length) rest
  | .marker kind index :: rest =>
    let stop := start + (kind.format index).length
    ⟨kind, index, start, stop⟩ :: placesFrom stop rest

/-- An occurrence is read as the marker that was written at a place: by its short name it
has the kind, by its digits the index, and it stands there. -/
structure Reads (found : Marker.Occurrence) (place : Place) : Prop where
  kind : MarkerKind.ofGroup? found.marker.kind.group = some place.kind
  index : readNumber found.marker.digits = .ok place.index
  start : found.start = place.start
  stop : found.stop = place.stop

/-- No marker occurs in a stretch, and the positions go on after it. -/
theorem occurrencesFrom_stretch (start : Nat) (text : Text) (rest : List Segment) :
    Marker.occurrencesFrom start (text.map .plain ++ rest) =
      Marker.occurrencesFrom (start + text.length) rest := by
  induction text generalizing start with
  | nil => rfl
  | cons c text inductionHypothesis =>
      rw [List.map_cons, List.cons_append, Marker.occurrencesFrom, inductionHypothesis,
        List.length_cons]
      congr 1
      omega

/-- The occurrences among the segments of pieces are read as the markers that were written,
one by one, wherever the positions start. -/
theorem reads_occurrencesFrom (fits : ∀ piece ∈ pieces, piece.Fits) (start : Nat) :
    List.Forall₂ Reads (Marker.occurrencesFrom start (pieces.flatMap segments))
      (placesFrom start pieces) := by
  induction pieces generalizing start with
  | nil => exact .nil
  | cons piece pieces inductionHypothesis =>
      obtain ⟨here, later⟩ := List.forall_mem_cons.mp fits
      rw [List.flatMap_cons]
      cases piece with
      | stretch text =>
          rw [segments, occurrencesFrom_stretch]
          exact inductionHypothesis later _
      | marker kind index =>
          have reads : Reads ⟨.ofIndex kind index, start, start + (kind.format index).length⟩
              ⟨kind, index, start, start + (kind.format index).length⟩ :=
            ⟨MarkerKind.ofGroup?_group kind, Text.readNumber_decimal here, rfl, rfl⟩
          exact .cons reads (inductionHypothesis later _)

/-- A scan finds the markers that were written into a text and no others, in their order and
at their places, whatever adjoins them. -/
theorem reads_occurrences (fits : ∀ piece ∈ pieces, piece.Fits) :
    List.Forall₂ Reads (Marker.occurrences (pieces.flatMap text)) (placesFrom 0 pieces) := by
  rw [Marker.occurrences, ofText_flatMap_text fits]
  exact reads_occurrencesFrom fits 0

/-- Markers between stretches that end as an opening does and begin as a closing does. -/
def adjoined : List Piece :=
  [.stretch ['7', '.', 'D', 'O', 'C'], .marker .generic 0, .stretch ['3', '.', ':'],
    .marker .docComment 12, .marker .block 1, .stretch [';', '2', ';']]

/-- Markers of each kind with nothing or with digits and closing characters between them. -/
theorem reads_occurrences_adjoined :
    (∀ piece ∈ adjoined, piece.Fits) ∧
      adjoined.flatMap text = "7.DOC&0.3.:&DOC12:&BLOCK1;;2;".toList ∧
      List.Forall₂ Reads (Marker.occurrences (adjoined.flatMap text))
        [⟨.generic, 0, 5, 8⟩, ⟨.docComment, 12, 11, 18⟩, ⟨.block, 1, 18, 26⟩] := by
  have small {index : Nat} (bound : index ≤ 12) : index < numberLimit :=
    Text.lt_numberLimit_of_le (Nat.le_trans bound (by decide))
  have fits : ∀ piece ∈ adjoined, piece.Fits := by
    simp only [adjoined, List.forall_mem_cons, Fits]
    exact ⟨by decide, small (by decide), by decide, small (by decide), small (by decide), by decide,
      fun piece member => absurd member List.not_mem_nil⟩
  have places : placesFrom 0 adjoined =
      [⟨.generic, 0, 5, 8⟩, ⟨.docComment, 12, 11, 18⟩, ⟨.block, 1, 18, 26⟩] := by
    decide +kernel
  exact ⟨fits, by decide +kernel, places ▸ reads_occurrences fits⟩

end Piece

end HeaderBook
