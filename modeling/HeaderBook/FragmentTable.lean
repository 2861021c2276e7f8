import HeaderBook.Marker

/-!
# Fragment tables

A table keeps the fragments lifted out of a working text, in the order of their
capture. A fragment's index never changes, and its marker is the only thing that
refers to it.
-/

namespace HeaderBook

open Text (decimal signedDecimal)

/-- The captured fragments of one marker kind. -/
structure FragmentTable where
  kind : MarkerKind
  fragments : List Text := []
  deriving DecidableEq, Repr

/-- A table was asked for an index under which it holds nothing. -/
structure MissingEntry where
  kind : MarkerKind
  index : Int
  deriving DecidableEq, Repr

/-- What is reported about a missing entry. -/
def MissingEntry.message (failure : MissingEntry) : Text :=
  failure.kind.label ++ " table has no entry ".toList ++ signedDecimal failure.index

namespace FragmentTable

/-- The number of fragments, which is the index of the next one. -/
def size (table : FragmentTable) : Nat :=
  table.fragments.length

/-- Adds a fragment at the end. -/
def push (table : FragmentTable) (fragment : Text) : FragmentTable :=
  { table with fragments := table.fragments ++ [fragment] }

/-- Adds fragments at the end. -/
def pushAll (table : FragmentTable) (fragments : List Text) : FragmentTable :=
  { table with fragments := table.fragments ++ fragments }

/-- Captures a fragment and tells its index. -/
def capture (table : FragmentTable) (fragment : Text) : Nat × FragmentTable :=
  (table.size, table.push fragment)

/-- Captures a fragment and gives the marker that stands for it. -/
def mark (table : FragmentTable) (fragment : Text) : Text × FragmentTable :=
  (table.kind.format table.size, table.push fragment)

/-- The fragment stored under an index. Negative indices hold nothing. -/
def get (table : FragmentTable) (index : Int) : Except MissingEntry Text :=
  match index with
  | .ofNat position =>
    match table.fragments[position]? with
    | some fragment => .ok fragment
    | none => .error ⟨table.kind, index⟩
  | .negSucc _ => .error ⟨table.kind, index⟩

/-- A one-line account of a table. -/
def describe (table : FragmentTable) : Text :=
  "PlaceholderTable(".toList ++ table.kind.title ++ ", entries=".toList ++
    decimal table.size ++ [')']

/-- The index of the ampersand in `withAmpersand`. -/
def ampersandIndex : Nat := 0

/-- The generic table at the beginning of an extraction: entry 0 is the
ampersand. -/
def withAmpersand : FragmentTable :=
  { kind := .generic, fragments := [['&']] }

end FragmentTable
end HeaderBook
