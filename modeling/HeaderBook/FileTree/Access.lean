import HeaderBook.FileTree.Walk

/-!
# Reading and changing file trees

The operations that a documentation run performs on files: making directories,
reading a file, and opening a file for writing or appending. An operation that
fails may have changed the tree before it did, as when some but not all of the
directories along a path could be made; such operations give the changed
directory beside their outcome.
-/

namespace HeaderBook.Directory

open FileTree (Arrival Failure Fault)

/-- Puts an entry at a location. -/
def put (here : Directory) (location : Location) (entry : Entry) : Directory :=
  { here with tree := here.tree.put location entry }

/-- Makes one directory where nothing stands yet. -/
def makeDirectory (here : Directory) (path : Path) : Except Fault Directory := do
  match ← here.walk .entry path with
  | .entry _ _ => throw .alreadyExists
  | .vacant directory name => return here.put (directory ++ [name]) (.directory [])

/-- Passes over a fault if the path leads to a directory all the same. -/
def excuse (here : Directory) (fault : Fault) (path : Path) : Except Failure Unit := do
  unless ← here.isDirectory path do
    throw (.fault fault path)

/-- Makes the directory at a path and those above it that are missing. What is a
directory already is left alone. -/
def makeDirectories (here : Directory) (path : Path) : Except Failure Unit × Directory :=
  match here.makeDirectory path with
  | .ok made => (.ok (), made)
  | .error .notFound =>
    if _root : path.names = [] then (.error (.fault .notFound path), here)
    else
      match makeDirectories here path.parent with
      | (.error failure, here) => (.error failure, here)
      | (.ok (), here) =>
        match here.makeDirectory path with
        | .ok made => (.ok (), made)
        | .error .notFound => (.error (.fault .notFound path), here)
        | .error fault => (here.excuse fault path, here)
  | .error fault => (here.excuse fault path, here)
termination_by path.names.length
decreasing_by
  simp only [Path.parent, List.length_dropLast]
  have := List.length_pos_iff.mpr _root
  omega

/-- Makes sure that a path leads to a directory. -/
def ensureDirectory (here : Directory) (path : Path) : Except Failure Unit × Directory :=
  match FileTree.refusal? path with
  | some failure => (.error failure, here)
  | none => here.makeDirectories path

/-- The content of the file that a path leads to. -/
def read (here : Directory) (path : Path) : Except Failure Bytes :=
  match FileTree.refusal? path, here.walk .target path with
  | some failure, _ => .error failure
  | none, .ok (.entry _ (.file content)) => .ok content
  | none, .ok (.entry _ (.directory _)) => .error (.fault .isDirectory path)
  | none, .ok (.entry _ (.link _)) => .error (.fault .tooManyLinks path)
  | none, .ok (.vacant _ _) => .error (.fault .notFound path)
  | none, .error fault => .error (.fault fault path)

/-- The locations at which a file or a link to a file stands, with the content of
the file. -/
def contents (here : Directory) : List (Location × Bytes) :=
  here.tree.all.filterMap fun (location, entry) =>
    match entry with
    | .file content => some (location, content)
    | .directory _ => none
    | .link _ => (here.read ⟨.root, location⟩).toOption.map (location, ·)

/-- Opens a file for writing: an existing file keeps `keep` of its content, a
missing one is made empty. The location of the file is given back. -/
def openFile (here : Directory) (keep : Bytes → Bytes) (path : Path) :
    Except Failure (Location × Directory) :=
  match FileTree.refusal? path, here.walk .writing path with
  | some failure, _ => .error failure
  | none, .ok (.entry location (.file content)) =>
    .ok (location, here.put location (.file (keep content)))
  | none, .ok (.entry _ (.directory _)) => .error (.fault .isDirectory path)
  | none, .ok (.entry _ (.link _)) => .error (.fault .tooManyLinks path)
  | none, .ok (.vacant directory name) =>
    .ok (directory ++ [name], here.put (directory ++ [name]) (.file []))
  | none, .error fault => .error (.fault fault path)

/-- Opens a file for writing from its beginning. -/
def truncate (here : Directory) (path : Path) : Except Failure (Location × Directory) :=
  here.openFile (fun _ => []) path

/-- Opens a file for writing at its end. -/
def openForAppending (here : Directory) (path : Path) : Except Failure (Location × Directory) :=
  here.openFile id path

end HeaderBook.Directory
