import HeaderBook.CommandLine
import HeaderBook.Platform.Standard
import Std.Time.Format

/-!
# The program

The files that a call may read are named on standard input, one path a line, as a
listing of the project gives them. They are read before the call, and what the
call has changed is written back after it. A path that names a directory, or any
other thing that cannot be read, counts as a directory.
-/

namespace HeaderBook.Program

/-- A text as it is printed. -/
def printed (text : CodeText) : String :=
  String.ofList (CodeText.shown text)

/-- The location of a path of the current directory. -/
def locate (current : Location) (path : String) : Location :=
  ((⟨{}, current⟩ : Directory).absolute (Path.ofText (codes path))).location

/-- The path that names a location. -/
def pathOf (location : Location) : String :=
  printed (Path.text ⟨.root, location⟩)

/-- A tree with the entry that stands at a path. -/
def load (current : Location) (tree : FileTree) (path : String) : IO FileTree := do
  let location := locate current path
  let tree := tree.fillIn location.dropLast
  try
    return tree.put location (.file (← IO.FS.readBinFile path).toList)
  catch failure =>
    match failure with
    | .noFileOrDirectory .. => return tree
    | _ => return tree.fillIn location

/-- Writes an entry back if it is new or changed. -/
def store (before : FileTree) (location : Location) (entry : Entry) : IO Unit := do
  let write (content : Bytes) := IO.FS.writeBinFile (pathOf location) ⟨content.toArray⟩
  match entry, before.get? location with
  | .file content, some (.file known) => unless content = known do write content
  | .file content, _ => write content
  | .directory _, none => IO.FS.createDirAll (pathOf location)
  | .directory _, some _ | .link _, _ => return

/-- The present time as lines of a log file bear it. -/
def timeText : IO Text := do
  return ((← Std.Time.PlainDateTime.now).format "uuuu-MM-dd HH:mm:ss,SSS").toList

end HeaderBook.Program

open HeaderBook HeaderBook.Program in
/-- Runs the program on the listed files. -/
def main (words : List String) : IO UInt32 := do
  let current := (Path.ofText (codes (toString (← IO.currentDir)))).names
  let listing := (← (← IO.getStdin).lines).toList.filter (!·.isEmpty)
  let tree ← listing.foldlM (load current) (({} : FileTree).fillIn current)
  let workspace : Workspace := { here := ⟨tree, current⟩, time := ← timeText }
  let homes : Homes := { own := (← IO.getEnv "HOME").map String.toList }
  let outcome := CommandLine.run (.standard homes) workspace (words.map String.toList)
  for (location, entry) in outcome.workspace.here.tree.all do
    store tree location entry
  IO.eprint (printed outcome.workspace.console)
  IO.print (printed outcome.output)
  match outcome.ending with
  | .exit status => return status.toUInt32
  | .failed failure =>
    IO.eprintln (printed failure.message)
    return 1
