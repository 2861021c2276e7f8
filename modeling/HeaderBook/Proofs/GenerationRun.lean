import HeaderBook.Generation
import HeaderBook.Proofs.SettingsFailure

/-!
# Runs of a generation

An action either gives a result or fails, and leaves a workspace in both cases.
`Gives` and `Fails` say so as relations, with one equivalence for each way of putting
actions together. In particular a sequence of actions over a list fails exactly where
some action fails after all actions before it have given their results.

`Escapes` lists the failures of a generation for which no call has an explanation: the
home directory of the pages is not known, the source directory cannot be resolved, a
marker's number is too long, the path of a page holds a null character, or the codec
breaks down on a text.
-/

namespace HeaderBook.Generation

variable {α β ε : Type}

/-- What an action comes to, and the workspace it leaves. -/
def outcome (action : Run α) (workspace : Workspace) : Except Failure α × Workspace :=
  action.run workspace

/-- The action succeeds with a result and leaves a workspace. -/
def Gives (action : Run α) (workspace : Workspace) (result : α) (left : Workspace) : Prop :=
  outcome action workspace = (.ok result, left)

/-- The action fails. -/
def Fails (action : Run α) (workspace : Workspace) (failure : Failure) : Prop :=
  ∃ left, outcome action workspace = (.error failure, left)

section

variable {workspace left : Workspace} {failure : Failure}

/-- An action that only gives a value leaves the workspace alone. -/
@[simp] theorem gives_pure {value result : α} :
    Gives (pure value) workspace result left ↔ value = result ∧ workspace = left := by
  constructor
  · intro equal
    cases equal
    exact ⟨rfl, rfl⟩
  · rintro ⟨rfl, rfl⟩
    rfl

/-- Such an action does not fail. -/
@[simp] theorem fails_pure {value : α} : ¬ Fails (pure value : Run α) workspace failure := by
  rintro ⟨_, equal⟩
  cases equal

/-- Asking for the workspace gives it. -/
@[simp] theorem gives_get {result : Workspace} :
    Gives get workspace result left ↔ workspace = result ∧ workspace = left := by
  constructor
  · intro equal
    cases equal
    exact ⟨rfl, rfl⟩
  · rintro ⟨rfl, rfl⟩
    rfl

/-- Asking for the workspace does not fail. -/
@[simp] theorem fails_get : ¬ Fails get workspace failure := by
  rintro ⟨_, equal⟩
  cases equal

/-- An action that only fails does so. -/
@[simp] theorem fails_throw {thrown : Failure} :
    Fails (throw thrown : Run α) workspace failure ↔ thrown = failure := by
  constructor
  · rintro ⟨_, equal⟩
    cases equal
    rfl
  · rintro rfl
    exact ⟨workspace, rfl⟩

/-- Such an action gives nothing. -/
@[simp] theorem gives_throw {thrown : Failure} {result : α} :
    ¬ Gives (throw thrown : Run α) workspace result left := by
  intro equal
  cases equal

/-- A result that is taken over is given as it is. -/
@[simp] theorem gives_attempt {cause : ε → Failure} {attempted : Except ε α} {result : α} :
    Gives (attempt cause attempted) workspace result left ↔
      attempted = .ok result ∧ workspace = left := by
  cases attempted with
  | error inner =>
      constructor
      · intro equal
        cases equal
      · rintro ⟨equal, _⟩
        cases equal
  | ok value =>
      constructor
      · intro equal
        cases equal
        exact ⟨rfl, rfl⟩
      · rintro ⟨equal, rfl⟩
        cases equal
        rfl

/-- The failure of a result that is taken over is the failure of the run, under its cause. -/
@[simp] theorem fails_attempt {cause : ε → Failure} {attempted : Except ε α} :
    Fails (attempt cause attempted) workspace failure ↔
      ∃ inner, attempted = .error inner ∧ cause inner = failure := by
  cases attempted with
  | error inner =>
      constructor
      · rintro ⟨_, equal⟩
        cases equal
        exact ⟨inner, rfl, rfl⟩
      · rintro ⟨_, equal, rfl⟩
        cases equal
        exact ⟨workspace, rfl⟩
  | ok value =>
      constructor
      · rintro ⟨_, equal⟩
        cases equal
      · rintro ⟨_, equal, _⟩
        cases equal

/-- An action with another after it, at one workspace. -/
theorem outcome_bind (first : Run α) (next : α → Run β) (workspace : Workspace) :
    outcome (first >>= next) workspace =
      match outcome first workspace with
      | (.ok value, between) => outcome (next value) between
      | (.error failure, between) => (.error failure, between) := by
  change (match outcome first workspace with
    | (result, between) => ExceptT.bindCont next result between) = _
  rcases outcome first workspace with ⟨failure | value, between⟩
  · rfl
  · rfl

/-- Two actions succeed when the first does and the second succeeds after it. -/
theorem gives_bind {first : Run α} {next : α → Run β} {result : β} :
    Gives (first >>= next) workspace result left ↔
      ∃ value between, Gives first workspace value between ∧ Gives (next value) between result left := by
  unfold Gives
  rw [outcome_bind]
  rcases outcome first workspace with ⟨failure | value, between⟩
  · simp
  · constructor
    · intro rest
      exact ⟨value, between, rfl, rest⟩
    · rintro ⟨_, _, equal, rest⟩
      cases equal
      exact rest

/-- Two actions fail as the first does, or as the second does after it. -/
theorem fails_bind {first : Run α} {next : α → Run β} :
    Fails (first >>= next) workspace failure ↔
      Fails first workspace failure ∨
        ∃ value between, Gives first workspace value between ∧ Fails (next value) between failure := by
  unfold Fails Gives
  rw [outcome_bind]
  rcases outcome first workspace with ⟨other | value, between⟩
  · simp
  · constructor
    · intro rest
      exact .inr ⟨value, between, rfl, rest⟩
    · rintro (⟨_, equal⟩ | ⟨_, _, equal, rest⟩)
      · cases equal
      · cases equal
        exact rest

/-- A function of the result changes no failure. -/
@[simp] theorem fails_map {first : Run α} {change : α → β} :
    Fails (change <$> first) workspace failure ↔ Fails first workspace failure := by
  rw [map_eq_pure_bind, fails_bind]
  simp

/-- Entering a record succeeds. -/
@[simp] theorem gives_log {level : Level} {part : String} {message : CodeText} {result : Unit} :
    Gives (log level part message) workspace result left ↔
      workspace.log ⟨level, Journal.sender part.toList, message⟩ = left := by
  constructor
  · intro equal
    exact (Prod.mk.inj equal).2
  · rintro rfl
    rfl

/-- Entering a record does not fail. -/
@[simp] theorem fails_log {level : Level} {part : String} {message : CodeText} :
    ¬ Fails (log level part message) workspace failure := by
  rintro ⟨_, equal⟩
  cases equal

/-- Filling a file succeeds. -/
@[simp] theorem fails_fill {location : Location} {content : Bytes} :
    ¬ Fails (fill location content) workspace failure := by
  rintro ⟨_, equal⟩
  cases equal

/-- An action on a header fails as it does in the workspace that knows of the header. -/
@[simp] theorem fails_processing {path : CodeText} {action : Run α} :
    Fails (processing path action) workspace failure ↔
      Fails action (workspace.enter path) failure := by
  have same : outcome (processing path action) workspace =
      ((outcome action (workspace.enter path)).1, (outcome action (workspace.enter path)).2.leave) :=
    rfl
  unfold Fails
  rw [same]
  rcases outcome action (workspace.enter path) with ⟨result, between⟩
  simp

/-- A sequence of actions over a list fails where one of them fails after those before
it have succeeded. -/
theorem fails_mapM {items : List α} {action : α → Run β} :
    Fails (items.mapM action) workspace failure ↔
      ∃ before item after results between, items = before ++ item :: after ∧
        Gives (before.mapM action) workspace results between ∧
        Fails (action item) between failure := by
  induction items generalizing workspace with
  | nil => simp
  | cons first items inductionHypothesis =>
      rw [List.mapM_cons, fails_bind]
      simp only [fails_bind, fails_pure, and_false, exists_false, or_false, inductionHypothesis]
      constructor
      · rintro (here | ⟨value, between, gives, before, item, after, results, reached, rfl, done, fails⟩)
        · exact ⟨[], first, items, [], workspace, rfl, by simp, here⟩
        · refine ⟨first :: before, item, after, value :: results, reached, rfl, ?_, fails⟩
          rw [List.mapM_cons, gives_bind]
          refine ⟨value, between, gives, ?_⟩
          rw [gives_bind]
          exact ⟨results, reached, done, by simp⟩
      · rintro ⟨before, item, after, results, reached, split, done, fails⟩
        cases before with
        | nil =>
            obtain ⟨rfl, rfl⟩ := List.cons.inj split
            rw [List.mapM_nil, gives_pure] at done
            rw [done.2]
            exact .inl fails
        | cons head before =>
            obtain ⟨rfl, rfl⟩ := List.cons.inj split
            rw [List.mapM_cons, gives_bind] at done
            obtain ⟨value, between, gives, rest⟩ := done
            rw [gives_bind] at rest
            obtain ⟨others, last, done, rest⟩ := rest
            rw [gives_pure] at rest
            rw [rest.2] at done
            exact .inr ⟨value, between, gives, before, item, after, others, reached, rfl, done, fails⟩

end

/-! ### Failures without an explanation -/

/-- The failures of a generation for which no call has an explanation. -/
inductive Failure.Unexplained : Failure → Prop where
  | scan {failure : FileTree.Failure} (unexplained : failure.Unexplained) :
      Unexplained (.scan (.files failure))
  | files {failure : FileTree.Failure} (unexplained : failure.Unexplained) :
      Unexplained (.files failure)
  | encoding (failure : Encoding.NameFailure) : Unexplained (.encoding failure)
  | reading {failure : Encoding.Failure} (unexplained : failure.Unexplained) :
      Unexplained (.reading failure)
  | number (failure : Text.NumberTooLong) : Unexplained (.number failure)
  | writing {failure : Encoding.Failure} (unexplained : failure.Unexplained) :
      Unexplained (.writing failure)

/-- A failure of the file system is unexplained as it is by itself. -/
theorem Failure.Unexplained.of_files {failure : FileTree.Failure}
    (unexplained : (Failure.files failure).Unexplained) : failure.Unexplained := by
  cases unexplained with
  | files unexplained => exact unexplained

/-- The text of a file, read by a codec. -/
def Reads (codec : Codec) (here : Directory) (path : Path) (text : Text) : Prop :=
  ∃ bytes, here.read path = .ok bytes ∧ codec.readText bytes = .ok text

/-- How reading a text fails without an explanation: the codec breaks down on the content
of the file. -/
inductive TextEscapes (codec : Codec) (here : Directory) (path : Path) : Failure → Prop where
  | reading {bytes : Bytes} {reason : Encoding.Failure} (read : here.read path = .ok bytes)
      (fails : codec.readText bytes = .error reason) (unexplained : reason.Unexplained) :
      TextEscapes codec here path (.reading reason)

/-- How writing a page fails without an explanation. -/
inductive PageEscapes (codec : Codec) (here : Directory) (target : Path) (text : CodeText) :
    Failure → Prop where
  /-- The path of its directory holds a null character. -/
  | directory (refused : FileTree.refusal? target.parent = some .nullCharacter) :
      PageEscapes codec here target text (.files .nullCharacter)
  /-- Its own path does. -/
  | page (made : (here.ensureDirectory target.parent).1 = .ok ())
      (refused : FileTree.refusal? target = some .nullCharacter) :
      PageEscapes codec here target text (.files .nullCharacter)
  /-- The codec breaks down on the page. -/
  | writing {file : Location × Directory} {reason : Encoding.Failure}
      (made : (here.ensureDirectory target.parent).1 = .ok ())
      (opened : (here.ensureDirectory target.parent).2.truncate target = .ok file)
      (fails : codec.write text = .error reason) (unexplained : reason.Unexplained) :
      PageEscapes codec here target text (.writing reason)

section

variable {codecs : Codecs} {codec : Codec} {settings : Settings} {workspace left : Workspace}
  {failure : Failure}

/-- The codec of the settings is found without touching the workspace. -/
theorem gives_codec {result : Codec} (named : codecs.find settings.encoding = .ok codec) :
    Gives (Generation.codec codecs settings) workspace result left ↔
      codec = result ∧ workspace = left := by
  rw [Generation.codec, gives_attempt, named, Except.ok.injEq]

/-- A codec that is there is always found. -/
theorem fails_codec (named : codecs.find settings.encoding = .ok codec) :
    ¬ Fails (Generation.codec codecs settings) workspace failure := by
  rw [Generation.codec, fails_attempt, named]
  rintro ⟨_, equal, _⟩
  cases equal

/-- Reading a text gives what the codec reads, and leaves the workspace as it is. -/
theorem gives_readText (named : codecs.find settings.encoding = .ok codec) {path : Path}
    {text : Text} :
    Gives (readText codecs settings path) workspace text left ↔
      Reads codec workspace.here path text ∧ workspace = left := by
  simp only [readText, gives_bind, gives_get, gives_attempt, gives_codec named, Reads]
  constructor
  · rintro ⟨_, _, ⟨rfl, rfl⟩, bytes, _, ⟨read, rfl⟩, _, _, ⟨rfl, rfl⟩, decoded, rfl⟩
    exact ⟨⟨bytes, read, decoded⟩, rfl⟩
  · rintro ⟨⟨bytes, read, decoded⟩, rfl⟩
    exact ⟨_, _, ⟨rfl, rfl⟩, bytes, _, ⟨read, rfl⟩, _, _, ⟨rfl, rfl⟩, decoded, rfl⟩

/-- Reading a text fails as the file cannot be read, or as the codec fails on its content. -/
theorem fails_readText (named : codecs.find settings.encoding = .ok codec) {path : Path} :
    Fails (readText codecs settings path) workspace failure ↔
      (∃ lost, workspace.here.read path = .error lost ∧ .files lost = failure) ∨
      ∃ bytes reason, workspace.here.read path = .ok bytes ∧
        codec.readText bytes = .error reason ∧ .reading reason = failure := by
  simp only [readText, fails_bind, fails_get, gives_get, fails_attempt, gives_attempt,
    fails_codec named, gives_codec named, false_or]
  constructor
  · rintro ⟨_, _, ⟨rfl, rfl⟩, unread | ⟨bytes, _, ⟨read, rfl⟩, _, _, ⟨rfl, rfl⟩, reason, failed⟩⟩
    · exact .inl unread
    · exact .inr ⟨bytes, reason, read, failed⟩
  · rintro (unread | ⟨bytes, reason, read, failed⟩)
    · exact ⟨_, _, ⟨rfl, rfl⟩, .inl unread⟩
    · exact ⟨_, _, ⟨rfl, rfl⟩, .inr ⟨bytes, _, ⟨read, rfl⟩, _, _, ⟨rfl, rfl⟩, reason, failed⟩⟩

/-- Reading a text from a path that is not refused fails without an explanation exactly
where the codec breaks down. -/
theorem fails_readText_iff (named : codecs.find settings.encoding = .ok codec) {path : Path}
    (free : FileTree.refusal? path = none) :
    Fails (readText codecs settings path) workspace failure ∧ failure.Unexplained ↔
      TextEscapes codec workspace.here path failure := by
  rw [fails_readText named]
  constructor
  · rintro ⟨⟨lost, failed, rfl⟩ | ⟨bytes, reason, read, failed, rfl⟩, unexplained⟩
    · rcases Directory.read_error failed with refused | ⟨fault, rfl⟩
      · rw [free] at refused
        cases refused
      · cases unexplained.of_files
    · cases unexplained with
      | reading unexplained => exact .reading read failed unexplained
  · rintro ⟨read, fails, unexplained⟩
    exact ⟨.inr ⟨_, _, read, fails, rfl⟩, .reading unexplained⟩

/-- Making sure of a directory fails as it does by itself. -/
theorem fails_ensureDirectory {path : Path} :
    Fails (ensureDirectory path) workspace failure ↔
      ∃ lost, (workspace.here.ensureDirectory path).1 = .error lost ∧ .files lost = failure := by
  rw [← mapError_eq_error_iff]
  constructor
  · rintro ⟨_, equal⟩
    exact congrArg Prod.fst equal
  · intro equal
    exact ⟨_, Prod.ext equal rfl⟩

/-- Making sure of a directory succeeds as it does by itself, with its changes taken over. -/
theorem gives_ensureDirectory {path : Path} {result : Unit} :
    Gives (ensureDirectory path) workspace result left ↔
      (workspace.here.ensureDirectory path).1 = .ok () ∧
        { workspace with here := (workspace.here.ensureDirectory path).2 } = left := by
  constructor
  · intro equal
    exact ⟨mapError_eq_ok_iff.mp (congrArg Prod.fst equal), congrArg Prod.snd equal⟩
  · rintro ⟨made, rfl⟩
    exact Prod.ext (mapError_eq_ok_iff.mpr made) rfl

/-- Emptying a file fails as it does by itself. -/
theorem fails_truncate {path : Path} :
    Fails (truncate path) workspace failure ↔
      ∃ lost, workspace.here.truncate path = .error lost ∧ .files lost = failure := by
  unfold Fails outcome truncate
  cases opened : workspace.here.truncate path with
  | error lost => simp [ExceptT.run, opened]
  | ok file => simp [ExceptT.run, opened]

/-- Emptying a file gives its location, with the change taken over. -/
theorem gives_truncate {path : Path} {location : Location} :
    Gives (truncate path) workspace location left ↔
      ∃ here, workspace.here.truncate path = .ok (location, here) ∧
        { workspace with here } = left := by
  unfold Gives outcome truncate
  cases opened : workspace.here.truncate path with
  | error lost => simp [ExceptT.run, opened]
  | ok file => simp [ExceptT.run, opened, Prod.ext_iff, and_assoc]

/-- Writing a page fails in making its directory, in opening its file, or in the codec. -/
theorem fails_writePage (named : codecs.find settings.encoding = .ok codec) {target : Path}
    {text : CodeText} :
    Fails (writePage codecs settings target text) workspace failure ↔
      (∃ lost, (workspace.here.ensureDirectory target.parent).1 = .error lost ∧
        .files lost = failure) ∨
      (workspace.here.ensureDirectory target.parent).1 = .ok () ∧
        ((∃ lost, (workspace.here.ensureDirectory target.parent).2.truncate target = .error lost ∧
          .files lost = failure) ∨
        ∃ file reason,
          (workspace.here.ensureDirectory target.parent).2.truncate target = .ok file ∧
            codec.write text = .error reason ∧ .writing reason = failure) := by
  simp only [writePage, fails_bind, fails_ensureDirectory, gives_ensureDirectory, fails_truncate,
    gives_truncate, fails_codec named, gives_codec named, fails_attempt, fails_fill, fails_log,
    and_false, exists_false, or_false, false_or]
  refine or_congr_right ⟨?_, ?_⟩
  · rintro ⟨_, _, ⟨made, rfl⟩, closed | ⟨location, _, ⟨here, opened, rfl⟩, _, _, ⟨rfl, rfl⟩, reason,
      failed⟩⟩
    · exact ⟨made, .inl closed⟩
    · exact ⟨made, .inr ⟨(location, here), reason, opened, failed⟩⟩
  · rintro ⟨made, closed | ⟨⟨location, here⟩, reason, opened, failed⟩⟩
    · exact ⟨(), _, ⟨made, rfl⟩, .inl closed⟩
    · exact ⟨(), _, ⟨made, rfl⟩,
        .inr ⟨location, _, ⟨here, opened, rfl⟩, _, _, ⟨rfl, rfl⟩, reason, failed⟩⟩

/-- Writing a page fails without an explanation in the listed ways only. -/
theorem fails_writePage_iff (named : codecs.find settings.encoding = .ok codec) {target : Path}
    {text : CodeText} :
    Fails (writePage codecs settings target text) workspace failure ∧ failure.Unexplained ↔
      PageEscapes codec workspace.here target text failure := by
  rw [fails_writePage named]
  constructor
  · rintro ⟨⟨lost, failed, rfl⟩ | ⟨made, ⟨lost, failed, rfl⟩ | ⟨file, reason, opened, failed, rfl⟩⟩,
      unexplained⟩
    · rcases Directory.ensureDirectory_error failed with refused | ⟨_, _, rfl⟩
      · obtain rfl := FileTree.eq_nullCharacter_of_refusal? refused unexplained.of_files
        exact .directory refused
      · cases unexplained.of_files
    · rcases Directory.openFile_error failed with refused | ⟨_, rfl⟩
      · obtain rfl := FileTree.eq_nullCharacter_of_refusal? refused unexplained.of_files
        exact .page made refused
      · cases unexplained.of_files
    · cases unexplained with
      | writing unexplained => exact .writing made opened failed unexplained
  · intro escapes
    cases escapes with
    | directory refused =>
        exact ⟨.inl ⟨_, congrArg Prod.fst (Directory.ensureDirectory_of_refusal? refused), rfl⟩,
          .files .nullCharacter⟩
    | page made refused =>
        exact ⟨.inr ⟨made, .inl ⟨_, Directory.openFile_of_refusal? _ refused, rfl⟩⟩,
          .files .nullCharacter⟩
    | writing made opened fails unexplained =>
        exact ⟨.inr ⟨made, .inr ⟨_, _, opened, fails, rfl⟩⟩, .writing unexplained⟩

/-- How the page of a header fails without an explanation. -/
inductive HeaderEscapes (codec : Codec) (settings : Settings) (output : Path) (source : SourceFile)
    (workspace : Workspace) : Failure → Prop where
  /-- The header cannot be read. -/
  | reading {failure : Failure}
      (escapes : TextEscapes codec workspace.here source.absolute failure) :
      HeaderEscapes codec settings output source workspace failure
  /-- A declaration refers to a comment by too long a number. -/
  | building {text : Text} {number : Text.NumberTooLong}
      (read : Reads codec workspace.here source.absolute text)
      (fails : Document.build source.path text = .error number) :
      HeaderEscapes codec settings output source workspace (.number number)
  /-- Too long a number stands in a text that is to be restored. -/
  | restoring {text : Text} {document : Document} {number : Text.NumberTooLong}
      (read : Reads codec workspace.here source.absolute text)
      (built : Document.build source.path text = .ok document)
      (fails : (page settings (settings.project ++ codes ": " ++ source.path)).ofDocument document
        settings.restoring = .error number) :
      HeaderEscapes codec settings output source workspace (.number number)
  /-- The page cannot be written. -/
  | writing {text : Text} {document : Document} {shown : CodeText} {failure : Failure}
      (read : Reads codec workspace.here source.absolute text)
      (built : Document.build source.path text = .ok document)
      (rendered : (page settings (settings.project ++ codes ": " ++ source.path)).ofDocument document
        settings.restoring = .ok shown)
      (escapes : PageEscapes codec (workspace.log ⟨.debug, Journal.sender "extract".toList,
        CodeText.ofText document.summary⟩).here (pagePath settings output source.path) shown
        failure) :
      HeaderEscapes codec settings output source workspace failure

/-- The document of a header is built from its text, and its summary entered into the
journal. -/
theorem gives_readDocument (named : codecs.find settings.encoding = .ok codec)
    {source : SourceFile} {document : Document} :
    Gives (readDocument codecs settings source) workspace document left ↔
      (∃ text, Reads codec workspace.here source.absolute text ∧
        Document.build source.path text = .ok document) ∧
      workspace.log ⟨.debug, Journal.sender "extract".toList,
        CodeText.ofText document.summary⟩ = left := by
  simp only [readDocument, gives_bind, gives_readText named, gives_attempt, gives_log, gives_pure]
  constructor
  · rintro ⟨text, _, ⟨read, rfl⟩, _, _, ⟨built, rfl⟩, _, _, logged, rfl, rfl⟩
    exact ⟨⟨text, read, built⟩, logged⟩
  · rintro ⟨⟨text, read, built⟩, logged⟩
    exact ⟨text, _, ⟨read, rfl⟩, _, _, ⟨built, rfl⟩, (), _, logged, rfl, rfl⟩

/-- The document of a header fails in reading its text or in building. -/
theorem fails_readDocument (named : codecs.find settings.encoding = .ok codec)
    {source : SourceFile} :
    Fails (readDocument codecs settings source) workspace failure ↔
      Fails (readText codecs settings source.absolute) workspace failure ∨
      ∃ text number, Reads codec workspace.here source.absolute text ∧
        Document.build source.path text = .error number ∧ .number number = failure := by
  simp only [readDocument, fails_bind, gives_readText named, fails_attempt, fails_log, fails_pure,
    and_false, exists_false, or_false]
  refine or_congr_right ⟨?_, ?_⟩
  · rintro ⟨text, _, ⟨read, rfl⟩, number, failed, equal⟩
    exact ⟨text, number, read, failed, equal⟩
  · rintro ⟨text, number, read, failed, equal⟩
    exact ⟨text, _, ⟨read, rfl⟩, number, failed, equal⟩

/-- The page of a header that was found fails without an explanation in the listed ways
only. -/
theorem fails_writeHeaderPage_iff (named : codecs.find settings.encoding = .ok codec)
    {output : Path} {source : SourceFile} (free : FileTree.refusal? source.absolute = none) :
    Fails (writeHeaderPage codecs settings output source) workspace failure ∧
        failure.Unexplained ↔
      HeaderEscapes codec settings output source workspace failure := by
  simp only [writeHeaderPage, fails_bind, gives_readDocument named, fails_readDocument named,
    fails_attempt, gives_attempt, fails_pure, and_false, exists_false, or_false]
  constructor
  · rintro ⟨(unread | ⟨text, number, read, failed, rfl⟩) |
      ⟨document, _, ⟨⟨text, read, built⟩, rfl⟩, ⟨number, failed, rfl⟩ |
        ⟨shown, _, ⟨rendered, rfl⟩, unwritten⟩⟩, unexplained⟩
    · exact .reading ((fails_readText_iff named free).mp ⟨unread, unexplained⟩)
    · exact .building read failed
    · exact .restoring read built failed
    · exact .writing read built rendered
        ((fails_writePage_iff named).mp ⟨unwritten, unexplained⟩)
  · intro escapes
    cases escapes with
    | reading escapes =>
        obtain ⟨unread, unexplained⟩ := (fails_readText_iff named free).mpr escapes
        exact ⟨.inl (.inl unread), unexplained⟩
    | building read failed =>
        exact ⟨.inl (.inr ⟨_, _, read, failed, rfl⟩), .number _⟩
    | restoring read built failed =>
        exact ⟨.inr ⟨_, _, ⟨⟨_, read, built⟩, rfl⟩, .inl ⟨_, failed, rfl⟩⟩, .number _⟩
    | writing read built rendered escapes =>
        obtain ⟨unwritten, unexplained⟩ := (fails_writePage_iff named).mpr escapes
        exact ⟨.inr ⟨_, _, ⟨⟨_, read, built⟩, rfl⟩, .inr ⟨_, _, ⟨rendered, rfl⟩, unwritten⟩⟩,
          unexplained⟩

/-- A file fails where it is a header whose page does. -/
theorem fails_processFile {output : Path} {source : SourceFile} :
    Fails (processFile codecs settings output source) workspace failure ↔
      settings.headerRule.rejection? source.path = none ∧
        Fails (writeHeaderPage codecs settings output source) (workspace.enter source.path)
          failure := by
  unfold processFile
  rw [fails_processing]
  cases settings.headerRule.rejection? source.path with
  | some rejection => simp
  | none => simp

/-- The workspace in which the headers are taken up: the scan is entered into the
journal. -/
theorem gives_sources {homes : Homes} {patterns : List CodeText} {found : List SourceFile} :
    Gives (sources homes settings patterns) workspace found left ↔
      SourceScan.scan homes workspace.here patterns settings.sourceDirectory = .ok found ∧
        workspace.log ⟨.debug, Journal.sender "generator".toList, codes "Found " ++ count found ++
          codes " candidate file(s) under " ++ settings.sourceDirectory.text⟩ = left := by
  simp only [sources, gives_bind, gives_get, gives_attempt, gives_log, gives_pure]
  constructor
  · rintro ⟨_, _, ⟨rfl, rfl⟩, _, _, ⟨scanned, rfl⟩, _, _, logged, rfl, rfl⟩
    exact ⟨scanned, logged⟩
  · rintro ⟨scanned, logged⟩
    exact ⟨_, _, ⟨rfl, rfl⟩, _, _, ⟨scanned, rfl⟩, (), _, logged, rfl, rfl⟩

/-- The path of a header that was found is not refused. -/
theorem refusal?_of_gives_sources {homes : Homes} {patterns : List CodeText}
    {before after : List SourceFile} {source : SourceFile}
    (scanned : Gives (sources homes settings patterns) workspace (before ++ source :: after) left) :
    FileTree.refusal? source.absolute = none :=
  SourceScan.refusal?_of_mem_scan (gives_sources.mp scanned).1
    (List.mem_append_right before List.mem_cons_self)

/-- Finding the files to consider fails as the scan does. -/
theorem fails_sources {homes : Homes} {patterns : List CodeText} :
    Fails (sources homes settings patterns) workspace failure ↔
      ∃ lost, SourceScan.scan homes workspace.here patterns settings.sourceDirectory =
        .error lost ∧ .scan lost = failure := by
  simp only [sources, fails_bind, fails_get, gives_get, fails_attempt, fails_log, fails_pure,
    and_false, exists_false, or_false, false_or]
  constructor
  · rintro ⟨_, _, ⟨rfl, rfl⟩, failed⟩
    exact failed
  · intro failed
    exact ⟨_, _, ⟨rfl, rfl⟩, failed⟩

/-- The index page fails as the overview is missing or cannot be read, or in being
written. -/
theorem fails_writeIndex (named : codecs.find settings.encoding = .ok codec) {output : Path} :
    Fails (writeIndex codecs settings output) workspace failure ↔
      (∃ lost, workspace.here.isFile settings.overview = .error lost ∧ .files lost = failure) ∨
      (workspace.here.isFile settings.overview = .ok false ∧
        .overviewMissing settings.overview = failure) ∨
      workspace.here.isFile settings.overview = .ok true ∧
        (Fails (readText codecs settings settings.overview) workspace failure ∨
          ∃ text, Reads codec workspace.here settings.overview text ∧
            Fails (writePage codecs settings (pagePath settings output (codes "index"))
              ((page settings settings.project).ofText text)) workspace failure) := by
  simp only [writeIndex, fails_bind, fails_get, gives_get, fails_attempt, gives_attempt, false_or]
  constructor
  · rintro ⟨_, _, ⟨rfl, rfl⟩, unknown | ⟨isFile, _, ⟨answer, rfl⟩, rest⟩⟩
    · exact .inl unknown
    · cases isFile with
      | false =>
          simp only [Bool.false_eq_true, if_false, fails_bind, fails_throw, gives_throw, false_and,
            exists_false, or_false] at rest
          exact .inr (.inl ⟨answer, rest⟩)
      | true =>
          simp only [if_true, fails_bind, gives_readText named, fails_pure, and_false, exists_false,
            or_false] at rest
          rcases rest with unread | ⟨text, _, ⟨read, rfl⟩, unwritten⟩
          · exact .inr (.inr ⟨answer, .inl unread⟩)
          · exact .inr (.inr ⟨answer, .inr ⟨text, read, unwritten⟩⟩)
  · rintro (unknown | ⟨answer, missing⟩ | ⟨answer, rest⟩)
    · exact ⟨_, _, ⟨rfl, rfl⟩, .inl unknown⟩
    · refine ⟨_, _, ⟨rfl, rfl⟩, .inr ⟨false, _, ⟨answer, rfl⟩, ?_⟩⟩
      simp [missing]
    · refine ⟨_, _, ⟨rfl, rfl⟩, .inr ⟨true, _, ⟨answer, rfl⟩, ?_⟩⟩
      simp only [if_true, fails_bind, gives_readText named, fails_pure, and_false, exists_false,
        or_false]
      rcases rest with unread | ⟨text, read, unwritten⟩
      · exact .inl unread
      · exact .inr ⟨text, _, ⟨read, rfl⟩, unwritten⟩

/-- How the index page fails without an explanation, if the overview is there. -/
inductive IndexEscapes (codec : Codec) (settings : Settings) (output : Path) (here : Directory) :
    Failure → Prop where
  /-- The overview cannot be read. -/
  | reading {failure : Failure} (escapes : TextEscapes codec here settings.overview failure) :
      IndexEscapes codec settings output here failure
  /-- The page cannot be written. -/
  | writing {text : Text} {failure : Failure} (read : Reads codec here settings.overview text)
      (escapes : PageEscapes codec here (pagePath settings output (codes "index"))
        ((page settings settings.project).ofText text) failure) :
      IndexEscapes codec settings output here failure

/-- The index page fails without an explanation in the listed ways only. -/
theorem fails_writeIndex_iff (named : codecs.find settings.encoding = .ok codec) {output : Path} :
    Fails (writeIndex codecs settings output) workspace failure ∧ failure.Unexplained ↔
      workspace.here.isFile settings.overview = .ok true ∧
        IndexEscapes codec settings output workspace.here failure := by
  rw [fails_writeIndex named]
  constructor
  · rintro ⟨⟨lost, unknown, rfl⟩ | ⟨_, rfl⟩ | ⟨present, unread | ⟨text, read, unwritten⟩⟩,
      unexplained⟩
    · rw [Directory.isFile_error unknown] at unexplained
      cases unexplained.of_files
    · cases unexplained
    · obtain ⟨_, found⟩ := Directory.find_of_isFile present
      have free := Directory.refusal?_of_find found
      exact ⟨present, .reading ((fails_readText_iff named free).mp ⟨unread, unexplained⟩)⟩
    · exact ⟨present, .writing read ((fails_writePage_iff named).mp ⟨unwritten, unexplained⟩)⟩
  · rintro ⟨present, escapes⟩
    cases escapes with
    | reading escapes =>
        obtain ⟨_, found⟩ := Directory.find_of_isFile present
        have free := Directory.refusal?_of_find found
        obtain ⟨unread, unexplained⟩ := (fails_readText_iff named free).mpr escapes
        exact ⟨.inr (.inr ⟨present, .inl unread⟩), unexplained⟩
    | writing read escapes =>
        obtain ⟨unwritten, unexplained⟩ := (fails_writePage_iff named).mpr escapes
        exact ⟨.inr (.inr ⟨present, .inr ⟨_, read, unwritten⟩⟩), unexplained⟩

end

section

variable {platform : Platform} {codec : Codec} {patterns : List CodeText} {settings : Settings}
  {output : Path} {workspace : Workspace} {failure : Failure}

/-- How a generation in a directory fails without an explanation. -/
inductive EscapesIn (platform : Platform) (codec : Codec) (patterns : List CodeText)
    (settings : Settings) (output : Path) (workspace : Workspace) : Failure → Prop where
  /-- The path of the source directory cannot be resolved. -/
  | source {failure : FileTree.Failure} (unexplained : failure.Unexplained)
      (lost : platform.homes.resolve workspace.here settings.sourceDirectory = .error failure) :
      EscapesIn platform codec patterns settings output workspace (.scan (.files failure))
  /-- The page of a header fails when those before it are done. -/
  | header {found before after : List SourceFile} {source : SourceFile}
      {outcomes : List (Skipped ⊕ Path)} {started reached : Workspace} {failure : Failure}
      (scanned : Gives (sources platform.homes settings patterns) workspace found started)
      (split : found = before ++ source :: after)
      (done : Gives (before.mapM (processFile platform.codecs settings output)) started outcomes
        reached)
      (accepted : settings.headerRule.rejection? source.path = none)
      (escapes : HeaderEscapes codec settings output source (reached.enter source.path) failure) :
      EscapesIn platform codec patterns settings output workspace failure
  /-- The index page fails when all headers are done. -/
  | index {found : List SourceFile} {outcomes : List (Skipped ⊕ Path)}
      {started reached : Workspace} {failure : Failure}
      (scanned : Gives (sources platform.homes settings patterns) workspace found started)
      (done : Gives (found.mapM (processFile platform.codecs settings output)) started outcomes
        reached)
      (present : reached.here.isFile settings.overview = .ok true)
      (escapes : IndexEscapes codec settings output reached.here failure) :
      EscapesIn platform codec patterns settings output workspace failure

/-- How a generation fails without an explanation. -/
inductive Escapes (platform : Platform) (codec : Codec) (settings : Settings) (output : Path)
    (workspace : Workspace) : Failure → Prop where
  /-- The directory of the pages starts at a home directory that cannot be told. -/
  | output {failure : FileTree.Failure} (unexplained : failure.Unexplained)
      (lost : platform.homes.expand output = .error failure) :
      Escapes platform codec settings output workspace (.files failure)
  /-- The generation fails in that directory. -/
  | within {directory : Path} {failure : Failure}
      (expanded : platform.homes.expand output = .ok directory)
      (escapes : EscapesIn platform codec settings.excludedPaths settings directory workspace
        failure) :
      Escapes platform codec settings output workspace failure

/-- A generation in a directory fails in its scan, in one of its headers or in its index
page. -/
theorem fails_runIn :
    Fails (runIn platform patterns settings output) workspace failure ↔
      Fails (sources platform.homes settings patterns) workspace failure ∨
      ∃ found started, Gives (sources platform.homes settings patterns) workspace found started ∧
        (Fails (found.mapM (processFile platform.codecs settings output)) started failure ∨
          ∃ outcomes reached,
            Gives (found.mapM (processFile platform.codecs settings output)) started outcomes
              reached ∧
              Fails (writeIndex platform.codecs settings output) reached failure) := by
  simp only [runIn, fails_bind, fails_log, fails_pure, and_false, exists_false, or_false]

/-- A generation in a directory fails without an explanation in the listed ways only. -/
theorem escapesIn_iff (named : platform.codecs.find settings.encoding = .ok codec) :
    Fails (runIn platform patterns settings output) workspace failure ∧ failure.Unexplained ↔
      EscapesIn platform codec patterns settings output workspace failure := by
  rw [fails_runIn]
  constructor
  · rintro ⟨unscanned | ⟨found, started, scanned, undone | ⟨outcomes, reached, done, unwritten⟩⟩,
      unexplained⟩
    · obtain ⟨lost, failed, rfl⟩ := fails_sources.mp unscanned
      -- Of the four ways in which a scan fails only the first can lack an explanation.
      rcases SourceScan.scan_error failed with ⟨inner, unresolved, rfl⟩ | rfl | rfl | ⟨_, _, rfl⟩
      · cases unexplained with
        | scan unexplained => exact .source unexplained unresolved
      · cases unexplained
      · cases unexplained
      · cases unexplained with
        | scan unexplained => cases unexplained
    · obtain ⟨before, source, after, outcomes, reached, rfl, done, fails⟩ := fails_mapM.mp undone
      obtain ⟨accepted, fails⟩ := fails_processFile.mp fails
      have free := refusal?_of_gives_sources scanned
      exact .header scanned rfl done accepted
        ((fails_writeHeaderPage_iff named free).mp ⟨fails, unexplained⟩)
    · obtain ⟨present, escapes⟩ := (fails_writeIndex_iff named).mp ⟨unwritten, unexplained⟩
      exact .index scanned done present escapes
  · intro escapes
    cases escapes with
    | source unexplained lost =>
        exact ⟨.inl (fails_sources.mpr ⟨_, SourceScan.scan_of_resolve_error lost, rfl⟩),
          .scan unexplained⟩
    | @header _ before after source outcomes started reached _ scanned split done accepted escapes =>
        subst split
        have free := refusal?_of_gives_sources scanned
        obtain ⟨fails, unexplained⟩ := (fails_writeHeaderPage_iff named free).mpr escapes
        have undone : Fails ((before ++ source :: after).mapM
            (processFile platform.codecs settings output)) started failure :=
          fails_mapM.mpr ⟨before, source, after, outcomes, reached, rfl, done,
            fails_processFile.mpr ⟨accepted, fails⟩⟩
        exact ⟨.inr ⟨_, started, scanned, .inl undone⟩, unexplained⟩
    | index scanned done present escapes =>
        obtain ⟨unwritten, unexplained⟩ := (fails_writeIndex_iff named).mpr ⟨present, escapes⟩
        exact ⟨.inr ⟨_, _, scanned, .inr ⟨_, _, done, unwritten⟩⟩, unexplained⟩

/-- A generation fails as the path of its directory cannot be expanded, or in the
directory. -/
theorem fails_run :
    Fails (run platform settings output) workspace failure ↔
      (∃ lost, platform.homes.expand output = .error lost ∧ .files lost = failure) ∨
      ∃ directory, platform.homes.expand output = .ok directory ∧
        Fails (runIn platform settings.excludedPaths settings directory) workspace failure := by
  simp only [run, runExcluding, fails_bind, fails_attempt, gives_attempt]
  refine or_congr_right (exists_congr fun directory => ?_)
  constructor
  · rintro ⟨_, ⟨expanded, rfl⟩, fails⟩
    exact ⟨expanded, fails⟩
  · rintro ⟨expanded, fails⟩
    exact ⟨workspace, ⟨expanded, rfl⟩, fails⟩

/-- A generation fails without an explanation in the listed ways only, if its settings
name a codec. -/
theorem escapes_iff (named : platform.codecs.find settings.encoding = .ok codec) :
    Fails (run platform settings output) workspace failure ∧ failure.Unexplained ↔
      Escapes platform codec settings output workspace failure := by
  rw [fails_run]
  constructor
  · rintro ⟨⟨lost, unexpanded, rfl⟩ | ⟨directory, expanded, fails⟩, unexplained⟩
    · exact .output unexplained.of_files unexpanded
    · exact .within expanded ((escapesIn_iff named).mp ⟨fails, unexplained⟩)
  · intro escapes
    cases escapes with
    | output unexplained lost => exact ⟨.inl ⟨_, lost, rfl⟩, .files unexplained⟩
    | within expanded escapes =>
        obtain ⟨fails, unexplained⟩ := (escapesIn_iff named).mpr escapes
        exact ⟨.inr ⟨_, expanded, fails⟩, unexplained⟩

end

end HeaderBook.Generation
