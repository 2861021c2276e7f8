import HeaderBook.Encoding.Failure
import HeaderBook.Path

/-!
# File trees

A directory holds entries by name: files, links and further directories. A file
tree is what stands in the root directory, and a location is the list of names that
leads from there to an entry. Content is a list of bytes.

What an operation does to a tree is said by what `get?` finds afterwards.
-/

namespace HeaderBook

/-- The names that lead from the root directory to an entry. -/
abbrev Location := List CodeText

/-- What stands at a location. -/
inductive Entry where
  | file (content : Bytes)
  /-- A directory and what stands in it. Of several entries with one name the first
  counts. -/
  | directory (entries : List (CodeText × Entry))
  /-- A symbolic link, by the text of the path it leads to. -/
  | link (target : Text)

namespace Entry

/-- What stands in a directory. Nothing stands in anything else. -/
def entries : Entry → List (CodeText × Entry)
  | .directory entries => entries
  | .file _ | .link _ => []

@[simp] theorem entries_directory (held : List (CodeText × Entry)) :
    (directory held).entries = held := rfl

/-- `isDirectory entry` holds for directories. -/
def isDirectory : Entry → Bool
  | .directory _ => true
  | .file _ | .link _ => false

/-- What stands below an entry. -/
def get? (entry : Entry) : Location → Option Entry
  | [] => some entry
  | name :: rest => (entry.entries.lookup name).bind (·.get? rest)

/-- The names of what stands in a directory, in no particular order. -/
def names (entry : Entry) : List CodeText :=
  (entry.entries.map Prod.fst).eraseDups

/-- Replaces the entry with a name, or adds one at the end. -/
def bind (name : CodeText) (entry : Entry) : List (CodeText × Entry) → List (CodeText × Entry)
  | [] => [(name, entry)]
  | (other, held) :: rest =>
    if other = name then (name, entry) :: rest else (other, held) :: bind name entry rest

/-- Puts `entry` below `old`, in place of what stood there. Directories are made
where there are none along the way. -/
def put (entry old : Entry) : Location → Entry
  | [] => entry
  | name :: rest =>
    let held := (old.entries.lookup name).getD (.directory [])
    .directory (bind name (entry.put held rest) old.entries)

theorem lookup_bind (name other : CodeText) (entry : Entry) (entries : List (CodeText × Entry)) :
    (bind name entry entries).lookup other =
      if other = name then some entry else entries.lookup other := by
  induction entries with
  | nil =>
    by_cases same : other = name
    · simp [bind, same]
    · simp [bind, same, List.lookup_cons, beq_eq_false_iff_ne.mpr same]
  | cons binding rest inductionHypothesis =>
    obtain ⟨held, value⟩ := binding
    by_cases here : held = name
    · subst here
      by_cases same : other = held
      · simp [bind, same]
      · simp [bind, same, List.lookup_cons, beq_eq_false_iff_ne.mpr same]
    · simp only [bind, here, if_false, List.lookup_cons]
      by_cases same : other = held
      · subst same
        simp [here]
      · simp [beq_eq_false_iff_ne.mpr same, inductionHypothesis]

/-- What was put is found where it was put. -/
theorem get?_put (entry old : Entry) (location : Location) :
    (entry.put old location).get? location = some entry := by
  induction location generalizing old with
  | nil => rfl
  | cons name rest inductionHypothesis =>
    simp [put, get?, lookup_bind, inductionHypothesis]

/-- Putting an entry changes nothing at a location that lies neither above nor
below. -/
theorem get?_put_of_apart (entry old : Entry) {location other : Location}
    (notBelow : ¬ location <+: other) (notAbove : ¬ other <+: location) :
    (entry.put old location).get? other = old.get? other := by
  induction location generalizing old other with
  | nil => exact absurd List.nil_prefix notBelow
  | cons name rest inductionHypothesis =>
    cases other with
    | nil => exact absurd List.nil_prefix notAbove
    | cons otherName otherRest =>
      by_cases same : otherName = name
      · subst same
        have below : ¬ rest <+: otherRest := fun within =>
          notBelow (List.cons_prefix_cons.mpr ⟨rfl, within⟩)
        have above : ¬ otherRest <+: rest := fun within =>
          notAbove (List.cons_prefix_cons.mpr ⟨rfl, within⟩)
        cases held : old.entries.lookup otherName with
        | some found =>
          simp [put, get?, lookup_bind, held, inductionHypothesis found below above]
        | none =>
          cases otherRest with
          | nil => exact absurd List.nil_prefix above
          | cons next further =>
            have missing := inductionHypothesis (.directory []) below above
            simpa [put, get?, lookup_bind, held] using missing
      · simp [put, get?, lookup_bind, same]

mutual

/-- All that stands below an entry at the location `here`. -/
def within (here : Location) : Entry → List (Location × Entry)
  | .directory entries => withinAll here entries
  | .file _ | .link _ => []

/-- The given entries of the directory `here` and all that stands below them. -/
def withinAll (here : Location) : List (CodeText × Entry) → List (Location × Entry)
  | [] => []
  | (name, entry) :: rest =>
    (here ++ [name], entry) :: (entry.within (here ++ [name]) ++ withinAll here rest)

end

end Entry

/-- What stands in the root directory. -/
structure FileTree where
  entries : List (CodeText × Entry) := []

namespace FileTree

/-- The root directory. -/
def root (tree : FileTree) : Entry :=
  .directory tree.entries

/-- What stands at a location. -/
def get? (tree : FileTree) (location : Location) : Option Entry :=
  tree.root.get? location

/-- Puts an entry at a location, in place of what stood there. -/
def put (tree : FileTree) (location : Location) (entry : Entry) : FileTree :=
  ⟨(entry.put tree.root location).entries⟩

/-- Makes directories at a location and at those above it, as far as nothing
stands there. -/
def fillIn (tree : FileTree) (location : Location) : FileTree :=
  if (tree.get? location).isSome then tree else tree.put location (.directory [])

/-- Adds bytes at the end of a file. -/
def append (tree : FileTree) (location : Location) (bytes : Bytes) : FileTree :=
  match tree.get? location with
  | some (.file content) => tree.put location (.file (content ++ bytes))
  | _ => tree

/-- All that stands in a tree, by location. -/
def all (tree : FileTree) : List (Location × Entry) :=
  tree.root.within []

/-- The length of the longest location. -/
def height (tree : FileTree) : Nat :=
  (tree.all.map fun (location, _) => location.length).foldl max 0

end FileTree
end HeaderBook
