import Mathlib.Control.Monad.Basic
import HeaderBook.CommandLine
import HeaderBook.Platform.Standard
import HeaderBook.Proofs.GenerationRun

/-!
# How calls end

A call should end with a status whatever its arguments and files are. It does unless a
failure has no explanation, and `Escapes` lists what brings such a failure about: a log
file that lacks its value or cannot be opened, a root directory that lacks its value,
the failures of loading settings and of generating pages that are listed with these, and
a loop of links in the line that sums up. `exits_iff` says that on every platform the
list is complete and that everything on it is an exception.

The stages rely on each other. Settings are loaded with an encoding that names a codec, so
no text fails later for want of one; files are read that were found before, so their
paths are not refused.
-/

namespace HeaderBook.CommandLine

/-- The settings file that the arguments name. -/
def settingsFile (arguments : Arguments) : Option Path :=
  match arguments.config with
  | some (.value text) => some (pathOf text)
  | some .nothing | none => none

/-- How a call ends without a status, with the failure it ends in. -/
inductive Escapes (platform : Platform) (workspace : Workspace) (words : List Text) :
    Failure → Prop where
  /-- The log file is given without a value. -/
  | logFileLacking {arguments : Arguments} (given : Arguments.ofWords words = .ok arguments)
      (lacking : arguments.logFile = some .nothing) :
      Escapes platform workspace words .logFileLacking
  /-- The log file cannot be opened. -/
  | logFile {arguments : Arguments} {text : Text} {failure : FileTree.Failure}
      (given : Arguments.ofWords words = .ok arguments)
      (named : arguments.logFile = some (.value text))
      (closed : (workspace.configure arguments.verbose (some (pathOf text))).1 = .error failure) :
      Escapes platform workspace words (.logFile failure)
  /-- The root directory is given without a value. -/
  | rootLacking {arguments : Arguments} {ready : Workspace}
      (given : Arguments.ofWords words = .ok arguments)
      (opened : openJournal workspace arguments = (.ok (), ready))
      (lacking : arguments.root = .nothing) : Escapes platform workspace words .rootLacking
  /-- Loading the settings fails. -/
  | settings {arguments : Arguments} {ready : Workspace} {root : Text}
      {failure : Settings.Failure} (given : Arguments.ofWords words = .ok arguments)
      (opened : openJournal workspace arguments = (.ok (), ready))
      (named : arguments.root = .value root)
      (escapes : Settings.Escapes platform ready.here (pathOf root) (settingsFile arguments)
        failure) :
      Escapes platform workspace words (.settings failure)
  /-- Generating the pages fails. -/
  | generation {arguments : Arguments} {ready : Workspace} {settings : Settings} {codec : Codec}
      {failure : Generation.Failure} (given : Arguments.ofWords words = .ok arguments)
      (opened : openJournal workspace arguments = (.ok (), ready))
      (loaded : loadSettings platform ready.here arguments = .ok settings)
      (named : platform.codecs.find settings.encoding = .ok codec)
      (escapes : Generation.Escapes platform codec settings (pathOf arguments.output) ready
        failure) :
      Escapes platform workspace words (.generation failure)
  /-- The pages are made, and their directory runs into a loop of links afterwards. -/
  | summary {arguments : Arguments} {ready left : Workspace} {settings : Settings}
      {report : Generation.Report} {path : Path}
      (given : Arguments.ofWords words = .ok arguments)
      (opened : openJournal workspace arguments = (.ok (), ready))
      (loaded : loadSettings platform ready.here arguments = .ok settings)
      (made : Generation.Gives (Generation.run platform settings (pathOf arguments.output)) ready
        report left)
      (lost : left.here.resolve report.output = .error (.linkLoop path)) :
      Escapes platform workspace words (.summary (.linkLoop path))

/-! ### Explanations -/

/-- A failure of the file system is explained unless it is on the list of the unexplained. -/
theorem fileComplaint?_eq_none_iff {explain : CodeText → CodeText} {failure : FileTree.Failure} :
    fileComplaint? explain failure = none ↔ failure.Unexplained := by
  constructor
  · intro silent
    cases failure with
    | fault fault path => cases silent
    | surrogates failure => cases silent
    | linkLoop path => exact .linkLoop path
    | nullCharacter => exact .nullCharacter
    | homeUnknown => exact .homeUnknown
  · intro unexplained
    cases unexplained with
    | linkLoop path => rfl
    | nullCharacter => rfl
    | homeUnknown => rfl

/-- A failure of a codec is explained unless the codec broke down. -/
theorem codecComplaint?_eq_none_iff {explain : CodeText → CodeText} {failure : Encoding.Failure} :
    codecComplaint? explain failure = none ↔ failure.Unexplained := by
  constructor
  · intro silent
    cases failure with
    | breakdown reason => exact .breakdown reason
    | _ => cases silent
  · rintro ⟨reason⟩
    rfl

/-- A failure to load settings is explained unless it is on the list of the unexplained. -/
theorem settingsComplaint?_eq_none_iff {failure : Settings.Failure} :
    settingsComplaint? failure = none ↔ failure.Unexplained := by
  constructor
  · intro silent
    cases failure with
    | files failure => exact .files (fileComplaint?_eq_none_iff.mp silent)
    | scalar failure =>
        cases failure with
        | characters reason => cases silent
        | _ => exact .scalar (by simp)
    | unprintable => exact .unprintable
    | encoding failure =>
        cases failure with
        | nullCharacter => exact .encoding
        | _ => cases silent
    | trial failure => exact .trial (codecComplaint?_eq_none_iff.mp silent)
    | _ => cases silent
  · intro unexplained
    cases unexplained with
    | files unexplained => exact fileComplaint?_eq_none_iff.mpr unexplained
    | @scalar failure legible =>
        cases failure with
        | characters reason => exact absurd rfl (legible reason)
        | _ => rfl
    | unprintable => rfl
    | encoding => rfl
    | trial unexplained => exact codecComplaint?_eq_none_iff.mpr unexplained

/-- Whatever words a fault is explained with, it is explained. -/
theorem generationFileComplaint?_eq_none_iff {failure : FileTree.Failure} :
    generationFileComplaint? failure = none ↔ failure.Unexplained := by
  unfold generationFileComplaint?
  split
  · exact fileComplaint?_eq_none_iff
  · exact fileComplaint?_eq_none_iff
  · exact fileComplaint?_eq_none_iff

/-- A failed generation is explained unless it is on the list of the unexplained. -/
theorem generationComplaint?_eq_none_iff {failure : Generation.Failure} :
    generationComplaint? failure = none ↔ failure.Unexplained := by
  constructor
  · intro silent
    cases failure with
    | scan failure =>
        cases failure with
        | files failure => exact .scan (generationFileComplaint?_eq_none_iff.mp silent)
        | _ => cases silent
    | files failure => exact .files (generationFileComplaint?_eq_none_iff.mp silent)
    | encoding failure => exact .encoding failure
    | reading failure => exact .reading (codecComplaint?_eq_none_iff.mp silent)
    | number failure => exact .number failure
    | writing failure => exact .writing (codecComplaint?_eq_none_iff.mp silent)
    | overviewMissing path => cases silent
  · intro unexplained
    cases unexplained with
    | scan unexplained => exact generationFileComplaint?_eq_none_iff.mpr unexplained
    | files unexplained => exact generationFileComplaint?_eq_none_iff.mpr unexplained
    | encoding failure => rfl
    | reading unexplained => exact codecComplaint?_eq_none_iff.mpr unexplained
    | number failure => rfl
    | writing unexplained => exact codecComplaint?_eq_none_iff.mpr unexplained

/-! ### Stages of a call -/

/-- A call that fails ends without a status exactly where its failure has no explanation. -/
theorem ending_ofFailure_iff {failure other : Failure} {workspace : Workspace} :
    (Outcome.ofFailure other workspace).ending = .failed failure ↔
      other.complaint? = none ∧ other = failure := by
  unfold Outcome.ofFailure
  cases other.complaint? with
  | none => simp
  | some complaint => simp

/-- The journal fails because of the log file, and never without one. -/
theorem openJournal_eq_error_iff {workspace : Workspace} {arguments : Arguments}
    {failure : Failure} :
    (openJournal workspace arguments).1 = .error failure ↔
      (arguments.logFile = some .nothing ∧ .logFileLacking = failure) ∨
      ∃ text lost, arguments.logFile = some (.value text) ∧
        (workspace.configure arguments.verbose (some (pathOf text))).1 = .error lost ∧
        .logFile lost = failure := by
  unfold openJournal
  cases arguments.logFile with
  | none => simp [Workspace.configure, Except.mapError]
  | some given =>
      cases given with
      | nothing => simp
      | value text => simp [mapError_eq_error_iff]

/-- The settings of a call fail for want of a root directory, or as loading them does. -/
theorem loadSettings_eq_error_iff {platform : Platform} {here : Directory} {arguments : Arguments}
    {failure : Failure} :
    loadSettings platform here arguments = .error failure ↔
      (arguments.root = .nothing ∧ .rootLacking = failure) ∨
      ∃ root lost, arguments.root = .value root ∧
        Settings.load platform here (pathOf root) (settingsFile arguments) = .error lost ∧
        .settings lost = failure := by
  unfold loadSettings
  cases arguments.root with
  | nothing => simp [throw, throwThe, MonadExceptOf.throw]
  | value root =>
      refine bind_eq_error_iff.trans ?_
      rw [mapError_eq_error_iff]
      constructor
      · rintro (⟨lost, failed, rfl⟩ | ⟨_, _, equal⟩)
        · exact .inr ⟨root, lost, rfl, failed, rfl⟩
        · cases equal
      · rintro (⟨equal, _⟩ | ⟨_, lost, equal, failed, rfl⟩)
        · cases equal
        · cases equal
          exact .inl ⟨lost, failed, rfl⟩

/-- The settings of a call name a codec. -/
theorem exists_codec_of_loadSettings {platform : Platform} {here : Directory}
    {arguments : Arguments} {settings : Settings}
    (loaded : loadSettings platform here arguments = .ok settings) :
    ∃ codec, platform.codecs.find settings.encoding = .ok codec := by
  unfold loadSettings at loaded
  cases root : arguments.root with
  | nothing =>
      rw [root] at loaded
      cases loaded
  | value text =>
      rw [root] at loaded
      obtain ⟨given, read, equal⟩ := bind_eq_ok_iff.mp loaded
      obtain rfl := Except.ok.inj equal
      obtain ⟨_, _, _, taken⟩ := Settings.exists_ofMapping_of_load (mapError_eq_ok_iff.mp read)
      obtain ⟨codec, named⟩ := Settings.exists_codec_of_ofMapping taken
      exact ⟨codec, named⟩

/-- A path cannot be shown only where it runs into a loop of links. -/
theorem relativePath_eq_error_iff {here : Directory} {path : Path} {failure : FileTree.Failure} :
    relativePath here path = .error failure ↔
      ∃ loop, here.resolve path = .error (.linkLoop loop) ∧ failure = .linkLoop loop := by
  unfold relativePath
  cases resolved : here.resolve path with
  | ok shown => simp
  | error lost =>
      rcases Directory.resolve_error resolved with ⟨loop, rfl⟩ | refused
      · simp [eq_comm]
      · rcases refused with ⟨surrogates, rfl⟩ | rfl
        · simp
        · simp

/-- A call ends with a status of at most 2 or with a failure. -/
theorem ending_cases (platform : Platform) (workspace : Workspace) (words : List Text) :
    (∃ status, status ≤ 2 ∧ (run platform workspace words).ending = .exit status) ∨
      ∃ failure, (run platform workspace words).ending = .failed failure := by
  have failed : ∀ failure workspace,
      (∃ status, status ≤ 2 ∧ (Outcome.ofFailure failure workspace).ending = .exit status) ∨
        ∃ other, (Outcome.ofFailure failure workspace).ending = .failed other := by
    intro failure workspace
    unfold Outcome.ofFailure
    cases failure.complaint? with
    | none => exact .inr ⟨failure, rfl⟩
    | some complaint => exact .inl ⟨1, by decide, rfl⟩
  unfold run
  split
  · exact .inl ⟨0, by decide, rfl⟩
  · exact .inl ⟨2, by decide, rfl⟩
  · unfold call
    split
    · exact failed _ _
    · split
      · exact failed _ _
      · split
        · exact failed _ _
        · split
          · exact failed _ _
          · exact .inl ⟨0, by decide, rfl⟩

/-- A call that ends without a status does so for a reason on the list. -/
theorem escapes_of_failed {platform : Platform} {workspace : Workspace} {words : List Text}
    {failure : Failure} (ended : (run platform workspace words).ending = .failed failure) :
    Escapes platform workspace words failure := by
  unfold run at ended
  split at ended
  · cases ended
  · cases ended
  next arguments given =>
    unfold call at ended
    split at ended
    next ready opened =>
      obtain ⟨silent, rfl⟩ := ending_ofFailure_iff.mp ended
      rcases openJournal_eq_error_iff.mp (congrArg Prod.fst opened) with
        ⟨lacking, rfl⟩ | ⟨text, lost, named, closed, rfl⟩
      · exact .logFileLacking given lacking
      · exact .logFile given named closed
    next ready opened =>
      split at ended
      next loaded =>
        obtain ⟨silent, rfl⟩ := ending_ofFailure_iff.mp ended
        rcases loadSettings_eq_error_iff.mp loaded with
          ⟨lacking, rfl⟩ | ⟨root, lost, named, unloaded, rfl⟩
        · exact .rootLacking given opened lacking
        · exact .settings given opened named
            (Settings.escapes_iff.mp ⟨unloaded, settingsComplaint?_eq_none_iff.mp silent⟩)
      next settings loaded =>
        split at ended
        next lost left fails =>
          obtain ⟨silent, rfl⟩ := ending_ofFailure_iff.mp ended
          obtain ⟨codec, named⟩ := exists_codec_of_loadSettings loaded
          exact .generation given opened loaded named ((Generation.escapes_iff named).mp
            ⟨⟨left, fails⟩, generationComplaint?_eq_none_iff.mp silent⟩)
        next report left made =>
          split at ended
          next unshown =>
            obtain ⟨_, rfl⟩ := ending_ofFailure_iff.mp ended
            obtain ⟨loop, lost, rfl⟩ := relativePath_eq_error_iff.mp unshown
            exact .summary given opened loaded made lost
          · cases ended

section

variable {platform : Platform} {workspace ready : Workspace} {words : List Text}
  {arguments : Arguments} (given : Arguments.ofWords words = .ok arguments)

include given

/-- A call with proper arguments does what they ask for. -/
theorem run_eq_call : run platform workspace words = call platform workspace arguments := by
  rw [run, given]

/-- A failure to open the journal that has no explanation ends the call. -/
theorem failed_of_openJournal {failure : Failure}
    (closed : (openJournal workspace arguments).1 = .error failure)
    (silent : failure.complaint? = none) :
    (run platform workspace words).ending = .failed failure := by
  rw [run_eq_call given, call]
  split
  next opened =>
    rw [opened] at closed
    obtain rfl := Except.error.inj closed
    exact ending_ofFailure_iff.mpr ⟨silent, rfl⟩
  next opened =>
    rw [opened] at closed
    cases closed

variable (opened : openJournal workspace arguments = (.ok (), ready))

include opened

/-- A failure to load the settings that has no explanation ends the call. -/
theorem failed_of_loadSettings {failure : Failure}
    (unloaded : loadSettings platform ready.here arguments = .error failure)
    (silent : failure.complaint? = none) :
    (run platform workspace words).ending = .failed failure := by
  rw [run_eq_call given]
  simp only [call, opened, unloaded]
  exact ending_ofFailure_iff.mpr ⟨silent, rfl⟩

variable {settings : Settings} (loaded : loadSettings platform ready.here arguments = .ok settings)

include loaded

/-- A failure of the generation that has no explanation ends the call. -/
theorem failed_of_generation {failure : Generation.Failure}
    (fails : Generation.Fails (Generation.run platform settings (pathOf arguments.output)) ready
      failure)
    (silent : generationComplaint? failure = none) :
    (run platform workspace words).ending = .failed (.generation failure) := by
  obtain ⟨left, fails⟩ := fails
  unfold Generation.outcome at fails
  rw [run_eq_call given]
  simp only [call, opened, loaded, fails]
  exact ending_ofFailure_iff.mpr ⟨silent, rfl⟩

/-- A failure to show the directory of the pages ends the call. -/
theorem failed_of_relativePath {report : Generation.Report} {left : Workspace}
    {failure : FileTree.Failure}
    (made : Generation.Gives (Generation.run platform settings (pathOf arguments.output)) ready
      report left)
    (lost : relativePath left.here report.output = .error failure) :
    (run platform workspace words).ending = .failed (.summary failure) := by
  unfold Generation.Gives Generation.outcome at made
  rw [run_eq_call given]
  simp only [call, opened, loaded, made, lost]
  rfl

end

/-- Whatever is on the list ends the call without a status. -/
theorem failed_of_escapes {platform : Platform} {workspace : Workspace} {words : List Text}
    {failure : Failure} (escapes : Escapes platform workspace words failure) :
    (run platform workspace words).ending = .failed failure := by
  cases escapes with
  | logFileLacking given lacking =>
      exact failed_of_openJournal given (openJournal_eq_error_iff.mpr (.inl ⟨lacking, rfl⟩)) rfl
  | logFile given named closed =>
      have failed := openJournal_eq_error_iff.mpr (.inr ⟨_, _, named, closed, rfl⟩)
      exact failed_of_openJournal given failed rfl
  | rootLacking given opened lacking =>
      exact failed_of_loadSettings given opened
        (loadSettings_eq_error_iff.mpr (.inl ⟨lacking, rfl⟩)) rfl
  | settings given opened named escapes =>
      obtain ⟨failed, unexplained⟩ := Settings.escapes_iff.mpr escapes
      have unloaded := loadSettings_eq_error_iff.mpr (.inr ⟨_, _, named, failed, rfl⟩)
      exact failed_of_loadSettings given opened unloaded
        (settingsComplaint?_eq_none_iff.mpr unexplained)
  | generation given opened loaded named escapes =>
      obtain ⟨fails, unexplained⟩ := (Generation.escapes_iff named).mpr escapes
      exact failed_of_generation given opened loaded fails
        (generationComplaint?_eq_none_iff.mpr unexplained)
  | summary given opened loaded made lost =>
      exact failed_of_relativePath given opened loaded made
        (relativePath_eq_error_iff.mpr ⟨_, lost, rfl⟩)

/-- On every platform, a call ends with a status, which is 0, 1 or 2, exactly when nothing
on the list of unexplained failures comes about. -/
theorem exits_iff (platform : Platform) (workspace : Workspace) (words : List Text) :
    (∃ status, status ≤ 2 ∧ (run platform workspace words).ending = .exit status) ↔
      ∀ failure, ¬ Escapes platform workspace words failure := by
  constructor
  · rintro ⟨status, _, exits⟩ failure escapes
    cases exits.symm.trans (failed_of_escapes escapes)
  · intro free
    rcases ending_cases platform workspace words with exits | ⟨failure, failed⟩
    · exact exits
    · exact absurd (escapes_of_failed failed) (free failure)

/-- Settings that name a day which does not exist, `project: 2024-13-01`. -/
def datedText : Text :=
  ['p', 'r', 'o', 'j', 'e', 'c', 't', ':', ' ', '2', '0', '2', '4', '-', '1', '3', '-', '0', '1', '\n']

/-- The bytes of these settings. -/
def datedBytes : Bytes :=
  datedText.map fun c => c.toNat.toUInt8

/-- A workspace that holds these settings and nothing else. -/
def datedProject : Workspace :=
  { here := { tree := ⟨[(Settings.fileName, .file datedBytes)]⟩, current := [] } }

/-- The reader finds the date, which is none. -/
theorem ofText_datedText :
    Yaml.Value.ofText datedText = .error (.timestamp "month must be in 1..12".toList) := by
  have failed : (Yaml.Value.ofText datedText).map (fun _ => ()) =
      .error (.timestamp "month must be in 1..12".toList) := by decide +kernel
  cases read : Yaml.Value.ofText datedText with
  | ok value =>
      rw [read] at failed
      cases failed
  | error reason =>
      rw [read] at failed
      rw [← Except.error.inj failed]

/-- The day leaves the call as a failure, though the settings are YAML and the call has
all its arguments. -/
theorem run_datedProject :
    (run (.standard {}) datedProject [['s', 'i', 't', 'e']]).ending =
        .failed (.settings (.scalar (.timestamp "month must be in 1..12".toList))) ∧
      ∀ status, (run (.standard {}) datedProject [['s', 'i', 't', 'e']]).ending ≠ .exit status := by
  have given : Arguments.ofWords [['s', 'i', 't', 'e']] = .ok { output := ['s', 'i', 't', 'e'] } := by
    decide +kernel
  have found : Homes.resolve {} datedProject.here (pathOf ".".toList) = .ok ⟨.root, []⟩ := by
    decide +kernel
  have there : Settings.locate (.standard {}) ⟨.root, []⟩ none =
      .ok ((Path.mk .root []).child Settings.fileName) := by
    decide +kernel
  have read : datedProject.here.read ((Path.mk .root []).child Settings.fileName) =
      .ok datedBytes := by
    decide +kernel
  have decoded : Encoding.Utf8.decode datedBytes = .ok datedText := by
    decide +kernel
  have unified : Encoding.unifyLineBreaks datedText = datedText := by
    decide +kernel
  have visible : (Encoding.unifyLineBreaks datedText).all Text.isBlank = false := by
    decide +kernel
  have fails : Yaml.Value.ofText (Encoding.unifyLineBreaks datedText) =
      .error (.timestamp "month must be in 1..12".toList) := by
    rw [unified, ofText_datedText]
  have escapes : Settings.Escapes (.standard {}) datedProject.here (pathOf ".".toList) none
      (.scalar (.timestamp "month must be in 1..12".toList)) :=
    .scalar found there read decoded visible fails ⟨by simp, by simp⟩
  have failed : (run (.standard {}) datedProject [['s', 'i', 't', 'e']]).ending =
      .failed (.settings (.scalar (.timestamp "month must be in 1..12".toList))) :=
    failed_of_escapes (.settings given rfl rfl escapes)
  refine ⟨failed, fun status exits => ?_⟩
  cases failed.symm.trans exits

end HeaderBook.CommandLine
