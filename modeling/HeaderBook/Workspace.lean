import HeaderBook.Encoding.Utf8
import HeaderBook.FileTree.Access
import HeaderBook.Journal

/-!
# Workspaces

A workspace is what a run acts on: the files, the console, and where the journal
goes. Every record at or above the threshold is shown on the console and, if a log
file is open, added at the end of that file at once. The log file is UTF-8, and a
record that cannot be written in it is shown on the console only.
-/

namespace HeaderBook

/-- What a run acts on. -/
structure Workspace where
  /-- The files, seen from the current directory. -/
  here : Directory
  /-- What the console shows so far. -/
  console : CodeText := []
  /-- Records below this level are dropped. -/
  threshold : Level := .info
  /-- The open log file. -/
  logFile : Option Location := none
  /-- The headers being processed, the innermost first. -/
  processing : List CodeText := []
  /-- The time that lines of the log file bear. -/
  time : Text := []

namespace Workspace

/-- Prints a text on the console. -/
def print (workspace : Workspace) (text : CodeText) : Workspace :=
  { workspace with console := workspace.console ++ text }

/-- Begins the processing of a header. -/
def enter (workspace : Workspace) (path : CodeText) : Workspace :=
  { workspace with processing := path :: workspace.processing }

/-- Ends the processing of the innermost header. -/
def leave (workspace : Workspace) : Workspace :=
  { workspace with processing := workspace.processing.tail }

/-- The path of the innermost header being processed, empty if there is none. -/
def current (workspace : Workspace) : CodeText :=
  workspace.processing.headD []

/-- Adds a line at the end of the log file, if it can be encoded. -/
def appendLine (workspace : Workspace) (line : CodeText) : Workspace :=
  match workspace.logFile, Encoding.Utf8.encode line with
  | some location, .ok bytes =>
    let tree := workspace.here.tree.append location bytes
    { workspace with here := { workspace.here with tree } }
  | _, _ => workspace

/-- Enters a record into the journal. -/
def log (workspace : Workspace) (record : Record) : Workspace :=
  if record.level.number < workspace.threshold.number then workspace
  else
    (workspace.print (Journal.consoleLine workspace.current record)).appendLine
      (Journal.fileLine workspace.time workspace.current record)

/-- Opens the log file at a path, making the directories above it. -/
def openLogFile (workspace : Workspace) (path : Path) :
    Except FileTree.Failure Unit × Workspace :=
  match workspace.here.ensureDirectory path.parent with
  | (.error failure, here) => (.error failure, { workspace with here })
  | (.ok (), here) =>
    match here.openForAppending (here.absolute path) with
    | .error failure => (.error failure, { workspace with here })
    | .ok (location, here) => (.ok (), { workspace with here, logFile := some location })

/-- Sets up the journal: an open log file is closed, and a new one opened if a
path is given. If that fails, records still go to the console. -/
def configure (workspace : Workspace) (verbose : Bool) (logFile : Option Path) :
    Except FileTree.Failure Unit × Workspace :=
  let quiet :=
    { workspace with threshold := if verbose then .debug else .info, logFile := none }
  match logFile with
  | none => (.ok (), quiet)
  | some path => quiet.openLogFile path

end Workspace
end HeaderBook
