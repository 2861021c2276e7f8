import HeaderBook.Text.Digit

/-!
# Markers

A marker stands in a working text for a fragment that was lifted out of it: an
opening that tells its kind, a decimal index, and a closing character. This
module writes markers, reads a marker at the beginning of a text, and cuts a
whole text into plain characters and markers, left to right.
-/

namespace HeaderBook

open Text (isDigit decimal)

/-- What a marker stands for. -/
inductive MarkerKind where
  /-- A literal, a block comment or the reserved ampersand. -/
  | generic
  /-- A run of line comments. -/
  | docComment
  /-- A braced block. -/
  | block
  deriving DecidableEq, Repr

namespace MarkerKind

/-- The kinds in the order in which they are tried. -/
def all : List MarkerKind := [.generic, .docComment, .block]

/-- The characters before the index. -/
def opening : MarkerKind → Text
  | .generic => ['&']
  | .docComment => ['&', 'D', 'O', 'C']
  | .block => ['&', 'B', 'L', 'O', 'C', 'K']

/-- The character after the index. -/
def closing : MarkerKind → Char
  | .generic => '.'
  | .docComment => ':'
  | .block => ';'

/-- The short name under which an index is found. -/
def group : MarkerKind → Text
  | .generic => "generic".toList
  | .docComment => "doc".toList
  | .block => "block".toList

/-- The full name, in lower case. -/
def label : MarkerKind → Text
  | .generic => "generic".toList
  | .docComment => "doc_comment".toList
  | .block => "block".toList

/-- The full name, in upper case. -/
def title : MarkerKind → Text
  | .generic => "GENERIC".toList
  | .docComment => "DOC_COMMENT".toList
  | .block => "BLOCK".toList

/-- The kind with a given short name. -/
def ofGroup? (name : Text) : Option MarkerKind :=
  all.find? fun kind => kind.group = name

/-- The marker of a kind with a given index. -/
def format (kind : MarkerKind) (index : Nat) : Text :=
  kind.opening ++ decimal index ++ [kind.closing]

/-- The form of a kind around any integer. Around a negative one it is no
marker. -/
def frame (kind : MarkerKind) (index : Int) : Text :=
  kind.opening ++ Text.signedDecimal index ++ [kind.closing]

theorem frame_natCast (kind : MarkerKind) (index : Nat) : kind.frame index = kind.format index :=
  rfl

/-- Reads a marker of this kind at the beginning of a text: its digits, of any
script, and what follows the marker. -/
def read? (kind : MarkerKind) (text : Text) : Option (Text × Text) :=
  match Text.after? kind.opening text with
  | none => none
  | some body =>
    match body.takeWhile isDigit, body.dropWhile isDigit with
    | digit :: digits, c :: rest =>
      if c = kind.closing then some (digit :: digits, rest) else none
    | _, _ => none

end MarkerKind

/-- A marker as it was read: its kind and the digits of its index. -/
structure Marker where
  kind : MarkerKind
  digits : Text
  deriving DecidableEq, Repr

namespace Marker

/-- The characters of a marker. -/
def text (marker : Marker) : Text :=
  marker.kind.opening ++ marker.digits ++ [marker.kind.closing]

/-- Reads a marker of any kind at the beginning of a text. -/
def read? (text : Text) : Option (Marker × Text) :=
  MarkerKind.all.findSome? fun kind =>
    (kind.read? text).map fun (digits, rest) => (⟨kind, digits⟩, rest)

end Marker

/-- Reading a marker gives its characters and the rest back. -/
theorem MarkerKind.text_of_read? {kind : MarkerKind} {text digits rest : Text}
    (found : kind.read? text = some (digits, rest)) :
    text = kind.opening ++ digits ++ kind.closing :: rest := by
  unfold MarkerKind.read? at found
  split at found
  · simp at found
  next body opened =>
    have textEq : text = kind.opening ++ body := Text.after?_eq_some_iff.mp opened
    split at found
    next digit digits' c rest' taken dropped =>
      split at found
      next closes =>
        simp only [Option.some.injEq, Prod.mk.injEq] at found
        obtain ⟨rfl, rfl⟩ := found
        have bodyEq := List.takeWhile_append_dropWhile (p := isDigit) (l := body)
        rw [taken, dropped, closes] at bodyEq
        rw [textEq, ← bodyEq, List.append_assoc]
      · simp at found
    · simp at found

/-- Reading a marker of any kind gives its characters and the rest back. -/
theorem Marker.text_of_read? {text rest : Text} {marker : Marker}
    (found : Marker.read? text = some (marker, rest)) : text = marker.text ++ rest := by
  obtain ⟨kind, _, mapped⟩ := List.exists_of_findSome?_eq_some found
  obtain ⟨⟨digits, rest'⟩, read, equal⟩ := Option.map_eq_some_iff.mp mapped
  simp only [Prod.mk.injEq] at equal
  obtain ⟨rfl, rfl⟩ := equal
  rw [MarkerKind.text_of_read? read]
  simp [Marker.text]

/-- What follows a marker is shorter than the text that begins with it. -/
theorem Marker.length_rest_lt {text rest : Text} {marker : Marker}
    (found : Marker.read? text = some (marker, rest)) : rest.length < text.length := by
  rw [Marker.text_of_read? found]
  simp [Marker.text]
  omega

/-- A working text consists of plain characters and markers. -/
inductive Segment where
  | plain (c : Char)
  | marker (found : Marker)
  deriving DecidableEq, Repr

namespace Segment

/-- The characters of a segment. -/
def text : Segment → Text
  | .plain c => [c]
  | .marker found => found.text

/-- Cuts a text into its segments. At each position a marker is preferred to a
plain character. -/
def ofText : Text → List Segment
  | [] => []
  | c :: rest =>
    match _read : Marker.read? (c :: rest) with
    | some (found, after) => .marker found :: ofText after
    | none => .plain c :: ofText rest
termination_by text => text.length
decreasing_by
  · exact Marker.length_rest_lt _read
  · simp

end Segment

/-- A marker with the position of its first character and the position after
its last. -/
structure Marker.Occurrence where
  marker : Marker
  start : Nat
  stop : Nat
  deriving DecidableEq, Repr

/-- The markers among `segments`, with positions counted from `start`. -/
def Marker.occurrencesFrom (start : Nat) : List Segment → List Marker.Occurrence
  | [] => []
  | .plain _ :: rest => Marker.occurrencesFrom (start + 1) rest
  | .marker found :: rest =>
    let stop := start + found.text.length
    ⟨found, start, stop⟩ :: Marker.occurrencesFrom stop rest

/-- The markers of a text with their positions, left to right. -/
def Marker.occurrences (text : Text) : List Marker.Occurrence :=
  Marker.occurrencesFrom 0 (Segment.ofText text)

end HeaderBook
