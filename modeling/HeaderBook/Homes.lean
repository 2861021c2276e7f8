import HeaderBook.FileTree.Walk

/-!
# Home directories

A path whose first name begins with a tilde starts at a home directory: at that of the
user whose name follows the tilde, or, where none follows, of the user who runs the
program. Where home directories are is not settled here.

A path is expanded before it is handed over to the file system, to which a tilde is a
character like any other.
-/

namespace HeaderBook

/-- The home directories of users, as far as they are known. -/
structure Homes where
  /-- That of the user who runs the program. -/
  own : Option Text := none
  ofUser : CodeText → Option Text := fun _ => none

namespace Homes

/-- The home directory of a user, by default of the one who runs the program. The name
of a user is handed over as paths are. -/
def lookup (homes : Homes) (user : CodeText) : Except FileTree.Failure (Option Text) :=
  if user = [] then .ok homes.own
  else
    match FileName.failure? user with
    | some failure => .error (.surrogates failure)
    | none => if user.contains '\x00' then .error .nullCharacter else .ok (homes.ofUser user)

/-- The path to a home directory. Slashes at its end do not count, and one that begins
with a tilde counts as unknown. -/
def path? (home : Text) : Option Path :=
  match Text.trimEnd (· = '/') home with
  | [] => some ⟨.root, []⟩
  | '~' :: _ => none
  | trimmed => some (Path.ofText (CodeText.ofText trimmed))

/-- A path with the home directory that it starts at written out. -/
def expand (homes : Homes) (path : Path) : Except FileTree.Failure Path :=
  match path.anchor, path.names with
  | .relative, (.char '~' :: user) :: names => do
    match (← homes.lookup user).bind path? with
    | some home => return home.descend names
    | none => throw .homeUnknown
  | _, _ => .ok path

/-- The absolute, link-free form of a path that may start at a home directory. -/
def resolve (homes : Homes) (here : Directory) (path : Path) : Except FileTree.Failure Path := do
  here.resolve (← homes.expand path)

end Homes
end HeaderBook
