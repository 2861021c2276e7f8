import HeaderBook.Page
import HeaderBook.Settings
import HeaderBook.SourceScan
import HeaderBook.Workspace

/-!
# Generation

A generation makes one page for every header of a project and then the index
page. Headers are taken in the order of the scan, and each is read, rendered and
written before the next. Files that the header rule rejects are skipped. The first
failure ends the generation; what was written before stays.

The directory for the pages may be given from a home directory on.
-/

namespace HeaderBook.Generation

/-- Why a generation failed. -/
inductive Failure where
  | scan (failure : SourceScan.Failure)
  | files (failure : FileTree.Failure)
  /-- The chosen name names no encoding. -/
  | encoding (failure : Encoding.NameFailure)
  /-- A source is no text in the chosen encoding. -/
  | reading (failure : Encoding.Failure)
  /-- A marker's number has too many digits. -/
  | number (failure : Text.NumberTooLong)
  /-- A page cannot be written in the chosen encoding. -/
  | writing (failure : Encoding.Failure)
  /-- No file stands at the overview's path. -/
  | overviewMissing (path : Path)
  deriving DecidableEq, Repr

/-- A failure as it is reported. -/
def Failure.message : Failure → CodeText
  | .scan failure => failure.message
  | .files failure => CodeText.ofText failure.message
  | .encoding failure => CodeText.ofText failure.message
  | .reading failure => CodeText.ofText failure.message
  | .number failure => CodeText.ofText failure.message
  | .writing failure => CodeText.ofText failure.message
  | .overviewMissing path => codes "Overview document not found: " ++ path.text

/-- A file for which there is no page, and why. -/
structure Skipped where
  path : CodeText
  rejection : Rejection
  deriving DecidableEq, Repr

/-- What a generation has made. -/
structure Report where
  /-- The directory that holds the pages. -/
  output : Path
  /-- The pages of headers, in the order of the scan. -/
  pages : List Path
  /-- The skipped files, in the order of the scan. -/
  skipped : List Skipped
  index : Path
  deriving DecidableEq, Repr

/-- An action on a workspace that may fail. Changes made before a failure stay. -/
abbrev Run := ExceptT Failure (StateM Workspace)

/-- Takes over a result, whose failure becomes the failure of the run. -/
def attempt (cause : ε → Failure) (result : Except ε α) : Run α := fun workspace =>
  (result.mapError cause, workspace)

/-- Enters a record into the journal. -/
def log (level : Level) (part : String) (message : CodeText) : Run Unit :=
  modify (·.log ⟨level, Journal.sender part.toList, message⟩)

/-- Runs an action with the path of a header in front of its records. -/
def processing (path : CodeText) (action : Run α) : Run α := fun workspace =>
  let (result, workspace) := action.run (workspace.enter path)
  (result, workspace.leave)

/-- Makes sure that a path leads to a directory. -/
def ensureDirectory (path : Path) : Run Unit := fun workspace =>
  let (result, here) := workspace.here.ensureDirectory path
  (result.mapError .files, { workspace with here })

/-- Empties the file at a path, or makes an empty one, and gives its location. -/
def truncate (path : Path) : Run Location := fun workspace =>
  match workspace.here.truncate path with
  | .ok (location, here) => (.ok location, { workspace with here })
  | .error failure => (.error (.files failure), workspace)

/-- Puts content into the file at a location. -/
def fill (location : Location) (content : Bytes) : Run Unit :=
  modify fun workspace => { workspace with here := workspace.here.put location (.file content) }

/-- The codec of all texts. -/
def codec (codecs : Codecs) (settings : Settings) : Run Codec :=
  attempt .encoding (codecs.find settings.encoding)

/-- The text of the file at a path. -/
def readText (codecs : Codecs) (settings : Settings) (path : Path) : Run Text := do
  let bytes ← attempt .files ((← get).here.read path)
  attempt .reading ((← codec codecs settings).readText bytes)

/-- Writes a page. A page that cannot be written leaves an empty file. -/
def writePage (codecs : Codecs) (settings : Settings) (target : Path) (text : CodeText) :
    Run Unit := do
  ensureDirectory target.parent
  let location ← truncate target
  fill location (← attempt .writing ((← codec codecs settings).write text))
  log .info "generator" (codes "Wrote " ++ target.text)

/-- The path of the page for a header, or of the index page for `index`. -/
def pagePath (settings : Settings) (output : Path) (path : CodeText) : Path :=
  output.child (path ++ codes "." ++ settings.pageExtension)

/-- A page with the project's title, or with a title inside the project. -/
def page (settings : Settings) (title : CodeText) : Page :=
  { title, language := settings.language, charset := CodeText.ofText settings.encoding }

/-- The document of a header. -/
def readDocument (codecs : Codecs) (settings : Settings) (source : SourceFile) :
    Run Document := do
  let text ← readText codecs settings source.absolute
  let document ← attempt .number (Document.build source.path text)
  log .debug "extract" (CodeText.ofText document.summary)
  return document

/-- Reads a header and writes its page. -/
def writeHeaderPage (codecs : Codecs) (settings : Settings) (output : Path)
    (source : SourceFile) : Run Path := do
  let document ← readDocument codecs settings source
  let title := settings.project ++ codes ": " ++ source.path
  let text ← attempt .number ((page settings title).ofDocument document settings.restoring)
  let target := pagePath settings output source.path
  writePage codecs settings target text
  return target

/-- Writes the page of a file found by the scan, or skips the file. -/
def processFile (codecs : Codecs) (settings : Settings) (output : Path) (source : SourceFile) :
    Run (Skipped ⊕ Path) :=
  processing source.path do
    match settings.headerRule.rejection? source.path with
    | some rejection =>
      log .warning "generator" (codes "Skipping: " ++ rejection.reason)
      return .inl ⟨source.path, rejection⟩
    | none => return .inr (← writeHeaderPage codecs settings output source)

/-- Writes the index page, which shows the overview. -/
def writeIndex (codecs : Codecs) (settings : Settings) (output : Path) : Run Path := do
  unless ← attempt .files ((← get).here.isFile settings.overview) do
    throw (.overviewMissing settings.overview)
  let text ← readText codecs settings settings.overview
  let target := pagePath settings output (codes "index")
  writePage codecs settings target ((page settings settings.project).ofText text)
  return target

/-- The number of items, as it is reported. -/
def count (items : List α) : CodeText :=
  CodeText.ofText (Text.decimal items.length)

/-- The files that a generation considers. -/
def sources (homes : Homes) (settings : Settings) (patterns : List CodeText) :
    Run (List SourceFile) := do
  let found ← attempt .scan (SourceScan.scan homes (← get).here patterns settings.sourceDirectory)
  log .debug "generator" (codes "Found " ++ count found ++
    codes " candidate file(s) under " ++ settings.sourceDirectory.text)
  return found

/-- Generates all pages of a project in a directory. Files that a pattern takes in are
left out. -/
def runIn (platform : Platform) (patterns : List CodeText) (settings : Settings) (output : Path) :
    Run Report := do
  let found ← sources platform.homes settings patterns
  let outcomes ← found.mapM (processFile platform.codecs settings output)
  let index ← writeIndex platform.codecs settings output
  let pages := outcomes.filterMap Sum.getRight?
  let skipped := outcomes.filterMap Sum.getLeft?
  log .info "generator" (codes "Wrote " ++ count pages ++
    codes " header page(s) and index; skipped " ++ count skipped ++
    codes " file(s)")
  return { output, pages, skipped, index }

/-- Generates all pages of a project in a directory that may start at a home directory. -/
def runExcluding (platform : Platform) (patterns : List CodeText) (settings : Settings)
    (output : Path) : Run Report := do
  runIn platform patterns settings (← attempt .files (platform.homes.expand output))

/-- Generates all pages of a project, leaving out what its settings exclude. -/
def run (platform : Platform) (settings : Settings) (output : Path) : Run Report :=
  runExcluding platform settings.excludedPaths settings output

end HeaderBook.Generation
