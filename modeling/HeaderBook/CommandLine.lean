import HeaderBook.CommandLine.Arguments
import HeaderBook.Generation

/-!
# The command line

A call reads its arguments, sets up the journal, loads the settings and generates
the pages. Expected failures are explained on the console and end the call with
status 1, wrong arguments end it with status 2. A failure that has no explanation
is the ending of the call itself.
-/

namespace HeaderBook.CommandLine

/-- A text of several lines. -/
def lines (texts : List String) : Text :=
  texts.flatMap fun text => text.toList ++ ['\n']

/-- How to call the program. -/
def usage : Text :=
  lines [
    "usage: hdrdoc [-h] [-v] [--log-file LOG_FILE] [--root ROOT] [--config CONFIG]",
    "              [--resolve-markers]",
    "              output_dir"]

/-- What help shows. -/
def help : Text :=
  usage ++ lines [
    "",
    "Render the documented declarations of a header tree as HTML pages.",
    "",
    "positional arguments:",
    "  output_dir           Directory that receives the generated pages.",
    "",
    "options:",
    "  -h, --help           show this help message and exit",
    "  -v, --verbose        Increase log verbosity for troubleshooting.",
    "  --log-file LOG_FILE  Also write log records to this file.",
    "  --root ROOT          Project root holding the header tree and README",
    "                       (defaults to current directory).",
    "  --config CONFIG      Configuration file (defaults to <root>/.hdrdoc.yml).",
    "  --resolve-markers    Show restored source instead of the folded text on each",
    "                       page."]

/-- What the console shows for wrong arguments. -/
def usageComplaint (error : UsageError) : Text :=
  usage ++ "hdrdoc: error: ".toList ++ error.message ++ ['\n']

/-- Why a call failed. -/
inductive Failure where
  /-- The switch for the log file is given without a value. -/
  | logFileLacking
  /-- The log file could not be opened. -/
  | logFile (failure : FileTree.Failure)
  /-- The switch for the root directory is given without a value. -/
  | rootLacking
  | settings (failure : Settings.Failure)
  | generation (failure : Generation.Failure)
  /-- The path of the pages could not be resolved for the line that sums up. -/
  | summary (failure : FileTree.Failure)
  deriving DecidableEq, Repr

/-- A failure as it is reported. -/
def Failure.message : Failure → CodeText
  | .logFileLacking => codes "'list' object has no attribute 'parent'"
  | .logFile failure => CodeText.ofText failure.message
  | .rootLacking => codes "expected str, bytes or os.PathLike object, not list"
  | .settings failure => failure.message
  | .generation failure => failure.message
  | .summary failure => CodeText.ofText failure.message

/-- The explanation of a failure of the file system; others have none. -/
def fileComplaint? (explain : CodeText → CodeText) (failure : FileTree.Failure) :
    Option CodeText :=
  match failure with
  | .fault _ _ | .surrogates _ => some (explain (CodeText.ofText failure.message))
  | .linkLoop _ | .nullCharacter | .homeUnknown => none

/-- The explanation of an objection of a codec; a breakdown has none. -/
def codecComplaint? (explain : CodeText → CodeText) (failure : Encoding.Failure) :
    Option CodeText :=
  match failure with
  | .bytes _ | .codes _ | .other _ => some (explain (CodeText.ofText failure.message))
  | .breakdown _ => none

/-- The explanation of why a settings file could not be read. -/
def unreadable (reason : CodeText) : CodeText :=
  codes "Cannot read configuration: " ++ reason ++ codes "\n"

/-- The explanation of a failure to load settings. -/
def settingsComplaint? (failure : Settings.Failure) : Option CodeText :=
  match failure with
  | .malformed _ _ | .notMapping _ | .encoding (.unknown _) | .encoding (.notText _) =>
    some (failure.message ++ codes "\n")
  | .files failure => fileComplaint? unreadable failure
  | .bytes _ | .surrogates _ | .scalar (.characters _) => some (unreadable failure.message)
  | .trial reason => codecComplaint? unreadable reason
  | .scalar _ | .unprintable | .encoding .nullCharacter => none

/-- The explanation of an unforeseen end of a generation. -/
def broken (reason : CodeText) : CodeText :=
  codes "hdrdoc failed: " ++ reason ++ codes "\nRun with --verbose for more details.\n"

/-- The explanation of a failure of the file system during a generation. Where
something is missing or no directory, the reason speaks for itself. -/
def generationFileComplaint? (failure : FileTree.Failure) : Option CodeText :=
  match failure with
  | .fault .notFound _ | .fault .notDirectory _ => fileComplaint? (· ++ codes "\n") failure
  | _ => fileComplaint? broken failure

/-- The explanation of a failed generation. -/
def generationComplaint? (failure : Generation.Failure) : Option CodeText :=
  match failure with
  | .scan (.missing _) | .scan (.notDirectory _) | .overviewMissing _ =>
    some (failure.message ++ codes "\n")
  | .scan (.files failure) | .files failure => generationFileComplaint? failure
  | .reading failure | .writing failure => codecComplaint? broken failure
  | .number _ | .encoding _ => none

/-- The explanation of a failed call. -/
def Failure.complaint? : Failure → Option CodeText
  | .logFileLacking | .logFile _ | .rootLacking | .summary _ => none
  | .settings failure => settingsComplaint? failure
  | .generation failure => generationComplaint? failure

/-- How a call ends. -/
inductive Ending where
  /-- With a status. -/
  | exit (status : Nat)
  /-- With a failure that was not explained. -/
  | failed (failure : Failure)
  deriving DecidableEq, Repr

/-- What a call leaves behind. -/
structure Outcome where
  ending : Ending
  /-- What the call prints apart from the console. -/
  output : CodeText := []
  workspace : Workspace

/-- Ends a call with a failure, explained on the console if it can be. -/
def Outcome.ofFailure (failure : Failure) (workspace : Workspace) : Outcome :=
  match failure.complaint? with
  | some complaint => { ending := .exit 1, workspace := workspace.print complaint }
  | none => { ending := .failed failure, workspace }

/-- A path as seen from the current directory if it lies in it. A path that cannot be
handed over is shown as it is. -/
def relativePath (here : Directory) (path : Path) : Except FileTree.Failure Path :=
  match here.resolve path with
  | .ok resolved => .ok ((resolved.relativeTo? ⟨.root, here.current⟩).getD path)
  | .error (.surrogates _) | .error .nullCharacter => .ok path
  | .error failure => .error failure

/-- The line that sums up a generation whose pages lie at a path. -/
def summary (report : Generation.Report) (shown : Path) : CodeText :=
  codes "Generated " ++ Generation.count report.pages ++ codes " page(s) and index in " ++
    shown.text ++
    (if report.skipped.isEmpty then []
      else codes ", skipped " ++ Generation.count report.skipped) ++ codes "\n"

/-- The path that a word of the command line names. -/
def pathOf (word : Text) : Path :=
  Path.ofText (CodeText.ofText word)

/-- Sets up the journal as the arguments ask for. -/
def openJournal (workspace : Workspace) (arguments : Arguments) :
    Except Failure Unit × Workspace :=
  let configure (logFile : Option Path) : Except Failure Unit × Workspace :=
    let (result, workspace) := workspace.configure arguments.verbose logFile
    (result.mapError .logFile, workspace)
  match arguments.logFile with
  | none => configure none
  | some (.value text) => configure (some (pathOf text))
  | some .nothing => (.error .logFileLacking, workspace)

/-- The settings that the arguments ask for. A settings file that is given without
a value is the default one. -/
def loadSettings (platform : Platform) (here : Directory) (arguments : Arguments) :
    Except Failure Settings := do
  let file := match arguments.config with
    | some (.value text) => some (pathOf text)
    | some .nothing | none => none
  match arguments.root with
  | .nothing => throw .rootLacking
  | .value root =>
    let settings ← (Settings.load platform here (pathOf root) file).mapError .settings
    return settings.override { restoring := if arguments.restoring then true else none }

/-- Does what the arguments ask for. -/
def call (platform : Platform) (workspace : Workspace) (arguments : Arguments) : Outcome :=
  match openJournal workspace arguments with
  | (.error failure, workspace) => .ofFailure failure workspace
  | (.ok (), workspace) =>
    match loadSettings platform workspace.here arguments with
    | .error failure => .ofFailure failure workspace
    | .ok settings =>
      match (Generation.run platform settings (pathOf arguments.output)).run workspace with
      | (.error failure, workspace) => .ofFailure (.generation failure) workspace
      | (.ok report, workspace) =>
        match relativePath workspace.here report.output with
        | .error failure => .ofFailure (.summary failure) workspace
        | .ok shown => { ending := .exit 0, output := summary report shown, workspace }

/-- Runs the program with the words of a command line. -/
def run (platform : Platform) (workspace : Workspace) (words : List Text) : Outcome :=
  match Arguments.ofWords words with
  | .error .help => { ending := .exit 0, output := CodeText.ofText help, workspace }
  | .error (.usage error) =>
    { ending := .exit 2, workspace := workspace.print (CodeText.ofText (usageComplaint error)) }
  | .ok arguments => call platform workspace arguments

end HeaderBook.CommandLine
