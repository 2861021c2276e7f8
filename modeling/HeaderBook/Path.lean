import HeaderBook.CodePoint

/-!
# Paths

A path is an anchor and a list of names. Empty names and the name `.` vanish
when a path is read; the name `..` stays, since it may lead through a link.
Exactly two slashes at the beginning are an anchor of their own.
-/

namespace HeaderBook

/-- Where a path starts. -/
inductive Anchor where
  /-- At the current directory. -/
  | relative
  /-- At the root directory. -/
  | root
  /-- At the root directory, spelled with two slashes. -/
  | doubleRoot
  deriving DecidableEq, Repr

/-- The characters of an anchor. -/
def Anchor.text : Anchor → CodeText
  | .relative => []
  | .root => ['/']
  | .doubleRoot => ['/', '/']

/-- A path: where it starts and the names along it. -/
structure Path where
  anchor : Anchor
  names : List CodeText
  deriving DecidableEq, Repr

namespace Path

/-- The slash between two names. -/
def slash : CodePoint := '/'

/-- The name of the directory itself. -/
def here : CodeText := ['.']

/-- The name of the directory above. -/
def above : CodeText := ['.', '.']

/-- The anchor of a path's text. -/
def anchorOf (text : CodeText) : Anchor :=
  match (text.takeWhile (· = slash)).length with
  | 0 => .relative
  | 2 => .doubleRoot
  | _ => .root

/-- The names of a path's text. -/
def namesOf (text : CodeText) : List CodeText :=
  (Text.split slash text).filter fun name => name ≠ [] ∧ name ≠ here

/-- Reads a path. -/
def ofText (text : CodeText) : Path :=
  ⟨anchorOf text, namesOf text⟩

/-- Writes a path. The path that goes nowhere is a full stop. -/
def text (path : Path) : CodeText :=
  match path.anchor.text ++ Text.join [slash] path.names with
  | [] => here
  | written => written

/-- `path.child text` goes on from `path`; a text with an anchor starts anew. -/
def child (path : Path) (text : CodeText) : Path :=
  let next := ofText text
  if next.anchor = .relative then { path with names := path.names ++ next.names } else next

/-- `path.entry name` goes on from `path` by one name. -/
def entry (path : Path) (name : CodeText) : Path :=
  { path with names := path.names ++ [name] }

/-- `path.descend names` goes on from `path` by several names. -/
def descend (path : Path) (names : List CodeText) : Path :=
  { path with names := path.names ++ names }

/-- The last name; the empty text if there is none. -/
def name (path : Path) : CodeText :=
  path.names.getLastD []

/-- The path without its last name. -/
def parent (path : Path) : Path :=
  { path with names := path.names.dropLast }

/-- The path that leads from `base` to `path`, if `path` lies below it. -/
def relativeTo? (path base : Path) : Option Path :=
  if path.anchor = base.anchor ∧ base.names.isPrefixOf path.names then
    some ⟨.relative, path.names.drop base.names.length⟩
  else
    none

end Path
end HeaderBook
