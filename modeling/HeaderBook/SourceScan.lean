import HeaderBook.FileTree.Access
import HeaderBook.Glob
import HeaderBook.Homes

/-!
# Scanning a source directory

The scan lists the regular files below a directory. Directories that hold
version control, caches or editor state are passed over, and so are the files
and directories that an exclusion pattern takes in. Links to directories are not
entered; links to files count as files. In every directory the files come first
and then what lies in its subdirectories, both in code-point order.
-/

namespace HeaderBook

/-- A file found by a scan. -/
structure SourceFile where
  /-- Its path from the scanned directory, names divided by slashes. -/
  path : CodeText
  /-- Its path from the root directory. -/
  absolute : Path
  deriving DecidableEq, Repr

namespace SourceScan

/-- Why a directory could not be scanned. -/
inductive Failure where
  | files (failure : FileTree.Failure)
  /-- Nothing stands at the path. -/
  | missing (path : Path)
  /-- Something other than a directory stands at the path. -/
  | notDirectory (path : Path)
  deriving DecidableEq, Repr

/-- A failure as it is reported. -/
def Failure.message : Failure → CodeText
  | .files failure => CodeText.ofText failure.message
  | .missing path => codes "Source directory not found: " ++ path.text
  | .notDirectory path => codes "Source path is not a directory: " ++ path.text

/-- Names of directories that are never entered. -/
def passedDirectories : List CodeText :=
  [".git", ".hg", ".svn", "__pycache__", ".idea", ".vscode", ".cache"].map codes

/-- Names of files that are never listed. -/
def passedFiles : List CodeText :=
  [".DS_Store", "Thumbs.db"].map codes

/-- The path of `name` in the directory whose relative path is `directory`; the
scanned directory itself has the empty path. -/
def below (directory name : CodeText) : CodeText :=
  if directory.isEmpty then name else directory ++ Path.slash :: name

/-- What a listing of the directory at a path shows. A path that leads nowhere or is
too long shows nothing. -/
def shown (here : Directory) (path : Path) : Entry :=
  match here.find path with
  | .ok (some entry) => entry
  | .ok none | .error _ => .directory []

/-- `leadsToDirectory here path entry` holds when `entry`, which stands at a path, is a
directory or a link that leads to one. -/
def leadsToDirectory (here : Directory) (path : Path) : Entry → Bool
  | .directory _ => true
  | .file _ => false
  | .link _ =>
    match here.isDirectory path with
    | .ok answer => answer
    | .error _ => false

/-- The names in a directory that may be files to list, in order. -/
def candidateNames (here : Directory) (patterns : List CodeText) (absolute : Path)
    (directory : CodeText) (held : Entry) : List CodeText :=
  (CodeText.sort held.names).filter fun name =>
    !(held.get? [name]).any (leadsToDirectory here (absolute.entry name)) &&
      !passedFiles.contains name && !Glob.isExcluded patterns (below directory name)

/-- The names of the directories to enter from a directory, in order. -/
def enteredNames (patterns : List CodeText) (directory : CodeText) (held : Entry) :
    List CodeText :=
  (CodeText.sort held.names).filter fun name =>
    (held.get? [name]).any Entry.isDirectory &&
      !passedDirectories.contains name && !Glob.isExcluded patterns (below directory name)

/-- What may be a file to list below a directory, down to `levels` levels. The
directory has a path from the root, free of links, and one from the scanned
directory. -/
def candidates (here : Directory) (patterns : List CodeText) (levels : Nat) (absolute : Path)
    (directory : CodeText) : List SourceFile :=
  match levels with
  | 0 => []
  | levels + 1 =>
    let held := shown here absolute
    ((candidateNames here patterns absolute directory held).map fun name =>
      { path := below directory name, absolute := absolute.entry name }) ++
    (enteredNames patterns directory held).flatMap fun name =>
      candidates here patterns levels (absolute.entry name) (below directory name)

/-- The files below a source directory. -/
def scan (homes : Homes) (here : Directory) (patterns : List CodeText) (source : Path) :
    Except Failure (List SourceFile) := do
  let root ← (homes.resolve here source).mapError .files
  match ← (here.find root).mapError .files with
  | none => throw (.missing source)
  | some (.directory _) =>
    (candidates here patterns (here.tree.height + 1) root []).filterM fun file =>
      (here.isFile file.absolute).mapError .files
  | some _ => throw (.notDirectory source)

end SourceScan
end HeaderBook
