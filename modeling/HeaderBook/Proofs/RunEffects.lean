import HeaderBook.Proofs.GenerationRun
import HeaderBook.Proofs.PlainTree

/-!
# What runs do to files

`Ensures` says what holds after an action, once for its success and once for its failure,
and there is a rule for each way of putting actions together. `Leaves` says which files an
action has replaced by the time it ends. Entering a record changes no file but the log
file, which is left out of account; reading changes nothing; and writing a page replaces
that page, or leaves it empty when the page cannot be written.
-/

namespace HeaderBook.Generation

open FileTree (content_eq_some_iff)

variable {α β ε : Type}

/-- The action fails and leaves a workspace. -/
def Breaks (action : Run α) (workspace : Workspace) (failure : Failure) (left : Workspace) : Prop :=
  outcome action workspace = (.error failure, left)

/-- What an action leaves is `good` when it succeeds and `bad` when it fails. -/
structure Ensures (action : Run α) (start : Workspace) (good : α → Workspace → Prop)
    (bad : Workspace → Prop) : Prop where
  gives : ∀ {value left}, Gives action start value left → good value left
  breaks : ∀ {failure left}, Breaks action start failure left → bad left

section

variable {start : Workspace} {bad : Workspace → Prop}

/-- What holds after success may be weakened. -/
theorem Ensures.imp {action : Run α} {good good' : α → Workspace → Prop}
    (ensures : Ensures action start good bad)
    (weaker : ∀ value left, good value left → good' value left) : Ensures action start good' bad :=
  ⟨fun gives => weaker _ _ (ensures.gives gives), ensures.breaks⟩

/-- What holds after failure may be weakened. -/
theorem Ensures.imp_bad {action : Run α} {good : α → Workspace → Prop} {bad' : Workspace → Prop}
    (ensures : Ensures action start good bad) (weaker : ∀ left, bad left → bad' left) :
    Ensures action start good bad' :=
  ⟨ensures.gives, fun breaks => weaker _ (ensures.breaks breaks)⟩

/-- Two actions, one after the other: what holds between them is what the second starts
from. -/
theorem Ensures.bind {first : Run α} {next : α → Run β} {between : α → Workspace → Prop}
    {good : β → Workspace → Prop} (one : Ensures first start between bad)
    (rest : ∀ value reached, between value reached → Ensures (next value) reached good bad) :
    Ensures (first >>= next) start good bad := by
  constructor
  · intro result left gives
    obtain ⟨value, reached, done, later⟩ := gives_bind.mp gives
    exact (rest value reached (one.gives done)).gives later
  · intro failure left breaks
    rw [Breaks, outcome_bind] at breaks
    rcases done : outcome first start with ⟨lost | value, reached⟩
    · rw [done] at breaks
      obtain ⟨equal, rfl⟩ := Prod.mk.inj breaks
      exact one.breaks done
    · rw [done] at breaks
      exact (rest value reached (one.gives done)).breaks breaks

/-- An action that only gives a value leaves the workspace as it is. -/
theorem ensures_pure {value : α} {good : α → Workspace → Prop} (holds : good value start) :
    Ensures (pure value) start good bad := by
  constructor
  · intro result left gives
    obtain ⟨rfl, rfl⟩ := gives_pure.mp gives
    exact holds
  · intro failure left breaks
    cases breaks

/-- Asking for the workspace leaves it as it is. -/
theorem ensures_get : Ensures get start (fun value left => value = start ∧ left = start) bad := by
  constructor
  · intro value left gives
    obtain ⟨rfl, rfl⟩ := gives_get.mp gives
    exact ⟨rfl, rfl⟩
  · intro failure left breaks
    cases breaks

/-- An action that only fails leaves the workspace as it is. -/
theorem ensures_throw {failure : Failure} (holds : bad start) :
    Ensures (throw failure : Run α) start (fun _ _ => False) bad := by
  constructor
  · intro value left gives
    cases gives
  · intro other left breaks
    cases breaks
    exact holds

/-- Taking over a result leaves the workspace as it is. -/
theorem ensures_attempt {cause : ε → Failure} {result : Except ε α}
    (holds : ∀ lost, result = .error lost → bad start) :
    Ensures (attempt cause result) start (fun value left => result = .ok value ∧ left = start) bad := by
  constructor
  · intro value left gives
    obtain ⟨equal, rfl⟩ := gives_attempt.mp gives
    exact ⟨equal, rfl⟩
  · intro failure left breaks
    obtain ⟨failed, rfl⟩ := Prod.mk.inj breaks
    obtain ⟨lost, equal, _⟩ := mapError_eq_error_iff.mp failed
    exact holds lost equal

/-- Entering a record does that and nothing else. -/
theorem ensures_log {level : Level} {part : String} {message : CodeText} :
    Ensures (log level part message) start
      (fun _ left => left = start.log ⟨level, Journal.sender part.toList, message⟩) bad := by
  constructor
  · intro value left gives
    exact (gives_log.mp gives).symm
  · intro failure left breaks
    cases breaks

/-- An action on a header is carried out in the workspace that knows of the header. -/
theorem ensures_processing {path : CodeText} {action : Run α} {good : α → Workspace → Prop}
    (inner : Ensures action (start.enter path) (fun value left => good value left.leave)
      fun left => bad left.leave) :
    Ensures (processing path action) start good bad := by
  have same : outcome (processing path action) start =
      ((outcome action (start.enter path)).1, (outcome action (start.enter path)).2.leave) := rfl
  constructor
  · intro value left gives
    obtain ⟨equal, rfl⟩ := Prod.mk.inj (same.symm.trans gives)
    exact inner.gives (Prod.ext equal rfl)
  · intro failure left breaks
    obtain ⟨equal, rfl⟩ := Prod.mk.inj (same.symm.trans breaks)
    exact inner.breaks (Prod.ext equal rfl)

/-- A sequence of actions over a list keeps what every action keeps, as it goes on from the
items that are done to the next one. -/
theorem ensures_mapM {items : List α} {action : α → Run β}
    (invariant : List α → List β → Workspace → Prop) (initial : invariant [] [] start)
    (step : ∀ before item after results reached, items = before ++ item :: after →
      invariant before results reached →
      Ensures (action item) reached
        (fun result left => invariant (before ++ [item]) (results ++ [result]) left) bad) :
    Ensures (items.mapM action) start (invariant items) bad := by
  -- The items done so far and their results are carried along.
  suffices goOn : ∀ (rest before : List α) (results : List β) (reached : Workspace),
      items = before ++ rest → invariant before results reached →
      Ensures (rest.mapM action) reached (fun later left => invariant items (results ++ later) left)
        bad by
    exact goOn items [] [] start rfl initial
  intro rest
  induction rest with
  | nil =>
      intro before results reached split holds
      rw [List.mapM_nil]
      apply ensures_pure
      rw [split, List.append_nil, List.append_nil]
      exact holds
  | cons item rest inductionHypothesis =>
      intro before results reached split holds
      rw [List.mapM_cons]
      apply (step before item rest results reached split holds).bind
      intro result between kept
      apply (inductionHypothesis (before ++ [item]) (results ++ [result]) between
        (by rw [split, List.append_assoc, List.singleton_append]) kept).bind
      intro later left done
      apply ensures_pure
      rw [List.append_assoc, List.singleton_append] at done
      exact done

end

/-! ### Replaced files -/

/-- What the workspace `left` has in place of files of `start`, the latest content first.
The open log file is left out of account. -/
structure Leaves (start : Workspace) (written : List (Location × Bytes)) (left : Workspace) :
    Prop where
  plain : left.here.Plain
  current : left.here.current = start.here.current
  logFile : left.logFile = start.logFile
  content : ∀ location, start.logFile ≠ some location →
    left.here.tree.content location =
      (written.lookup location).or (start.here.tree.content location)

section

variable {start reached left : Workspace} {before after : List (Location × Bytes)}

/-- Where nothing is done, nothing is replaced. -/
theorem Leaves.refl (plain : start.here.Plain) : Leaves start [] start :=
  ⟨plain, rfl, rfl, fun _ _ => rfl⟩

/-- What is replaced later counts before what was replaced earlier. -/
theorem Leaves.trans (one : Leaves start before reached) (other : Leaves reached after left) :
    Leaves start (after ++ before) left := by
  refine ⟨other.plain, other.current.trans one.current, other.logFile.trans one.logFile, ?_⟩
  intro location unlogged
  rw [other.content location (one.logFile ▸ unlogged), one.content location unlogged,
    List.lookup_append, Option.or_assoc]

/-- A directory that was rewritten can take its place in the workspace. -/
theorem leaves_of_rewritten {there : Directory} (rewritten : start.here.Rewritten after there) :
    Leaves start after { start with here := there } :=
  ⟨rewritten.plain, rewritten.current, rfl, fun location _ => rewritten.content location⟩

/-- Paths lead to the same places as before. -/
theorem Leaves.place_eq (leaves : Leaves start after left) (path : Path) :
    left.here.place path = start.here.place path :=
  Directory.place_eq_of_current leaves.current path

/-- Of two contents of one file the latest counts. -/
theorem Leaves.overwritten {location : Location} {bytes earlier : Bytes}
    (leaves : Leaves start [(location, bytes), (location, earlier)] left) :
    Leaves start [(location, bytes)] left := by
  refine ⟨leaves.plain, leaves.current, leaves.logFile, fun other unlogged => ?_⟩
  rw [leaves.content other unlogged, List.lookup_cons, List.lookup_cons, List.lookup_cons]
  cases other == location with
  | true => rfl
  | false => rfl

/-- The header being processed has nothing to do with the files. -/
theorem Leaves.processed {path : CodeText} (leaves : Leaves (start.enter path) after left) :
    Leaves start after left.leave :=
  ⟨leaves.plain, leaves.current, leaves.logFile, leaves.content⟩

variable (plain : start.here.Plain)

include plain

/-- Entering a record changes the log file at most. -/
theorem leaves_log (record : Record) : Leaves start [] (start.log record) := by
  unfold Workspace.log
  split
  · exact .refl plain
  · unfold Workspace.appendLine
    split
    next location bytes logging _ =>
      change start.logFile = some location at logging
      unfold FileTree.append
      split
      next content stands =>
        have rewritten : start.here.Rewritten [(location, content ++ bytes)]
            (start.here.put location (.file (content ++ bytes))) :=
          plain.rewritten_file stands _
        refine ⟨rewritten.plain, rfl, rfl, fun other unlogged => ?_⟩
        have apart : (other == location) = false := by
          rw [beq_eq_false_iff_ne]
          rintro rfl
          exact unlogged logging
        refine (rewritten.content other).trans ?_
        rw [List.lookup_cons, apart]
      · exact ⟨plain, rfl, rfl, fun _ _ => rfl⟩
    · exact ⟨plain, rfl, rfl, fun _ _ => rfl⟩

omit plain in
/-- Another record changes nothing that is accounted for. -/
theorem Leaves.log (leaves : Leaves start after left) (record : Record) :
    Leaves start after (left.log record) :=
  leaves.trans (leaves_log leaves.plain record)

variable {bad : Workspace → Prop}

/-- Making sure of a directory replaces no file. -/
theorem ensures_ensureDirectory (path : Path) (kept : ∀ left, Leaves start [] left → bad left) :
    Ensures (ensureDirectory path) start (fun _ left => Leaves start [] left) bad := by
  have leaves := leaves_of_rewritten (plain.rewritten_ensureDirectory path)
  constructor
  · intro value left gives
    obtain ⟨_, rfl⟩ := Prod.mk.inj gives
    exact leaves
  · intro failure left breaks
    obtain ⟨_, rfl⟩ := Prod.mk.inj breaks
    exact kept _ leaves

/-- Emptying a file does that, or changes nothing. -/
theorem ensures_truncate (path : Path) (kept : bad start) :
    Ensures (truncate path) start
      (fun location left => location = start.here.place path ∧
        ∃ there, left = { start with here := there } ∧ start.here.Rewritten [(location, [])] there)
      bad := by
  cases opened : start.here.truncate path with
  | error lost =>
      have same : outcome (truncate path) start = (.error (.files lost), start) := by
        simp [outcome, truncate, ExceptT.run, opened]
      constructor
      · intro location left gives
        cases same.symm.trans gives
      · intro failure left breaks
        cases same.symm.trans breaks
        exact kept
  | ok file =>
      obtain ⟨place, there⟩ := file
      have same : outcome (truncate path) start = (.ok place, { start with here := there }) := by
        simp [outcome, truncate, ExceptT.run, opened]
      constructor
      · intro location left gives
        cases same.symm.trans gives
        obtain ⟨equal, rewritten⟩ := plain.rewritten_truncate opened
        exact ⟨equal, there, rfl, rewritten⟩
      · intro failure left breaks
        cases same.symm.trans breaks

omit plain in
/-- Filling a file does that and nothing else. -/
theorem ensures_fill {location : Location} {bytes : Bytes} :
    Ensures (fill location bytes) start
      (fun _ left => left = { start with here := start.here.put location (.file bytes) }) bad := by
  constructor
  · intro value left gives
    exact (Prod.mk.inj gives).2.symm
  · intro failure left breaks
    cases breaks

variable {codecs : Codecs} {codec : Codec} {settings : Settings}
  (named : codecs.find settings.encoding = .ok codec)

omit plain in
include named in
/-- Finding the codec leaves the workspace as it is. -/
theorem ensures_codec :
    Ensures (Generation.codec codecs settings) start
      (fun value left => value = codec ∧ left = start) bad := by
  refine (ensures_attempt fun _ lost => ?_).imp ?_
  · cases named.symm.trans lost
  · rintro value _ ⟨found, rfl⟩
    exact ⟨Except.ok.inj (found.symm.trans named), rfl⟩

include named

omit plain in
/-- Reading changes nothing. -/
theorem ensures_readText (path : Path) (kept : bad start) :
    Ensures (readText codecs settings path) start
      (fun text left => Reads codec start.here path text ∧ left = start) bad := by
  unfold readText
  apply ensures_get.bind
  rintro _ _ ⟨rfl, rfl⟩
  apply (ensures_attempt fun _ _ => kept).bind
  rintro bytes _ ⟨read, rfl⟩
  apply (ensures_codec named).bind
  rintro _ _ ⟨rfl, rfl⟩
  apply (ensures_attempt fun _ _ => kept).imp
  rintro text _ ⟨decoded, rfl⟩
  exact ⟨⟨bytes, read, decoded⟩, rfl⟩

/-- Writing a page replaces that page. If it fails, it has changed no file or has left the
page empty. -/
theorem ensures_writePage (target : Path) (text : CodeText)
    (kept : ∀ left, Leaves start [] left → bad left)
    (emptied : ∀ left, Leaves start [(start.here.place target, [])] left → bad left) :
    Ensures (writePage codecs settings target text) start
      (fun _ left => ∃ bytes, codec.write text = .ok bytes ∧
        Leaves start [(start.here.place target, bytes)] left) bad := by
  unfold writePage
  apply (ensures_ensureDirectory plain target.parent kept).bind
  intro _ reached made
  apply (ensures_truncate made.plain target (kept reached made)).bind
  rintro location _ ⟨rfl, there, rfl, opened⟩
  rw [made.place_eq] at opened ⊢
  have empty : Leaves start [(start.here.place target, [])] { reached with here := there } :=
    made.trans (leaves_of_rewritten opened)
  apply (ensures_codec named).bind
  rintro _ _ ⟨rfl, rfl⟩
  apply (ensures_attempt fun _ _ => emptied _ empty).bind
  rintro bytes _ ⟨written, rfl⟩
  apply ensures_fill.bind
  rintro _ _ rfl
  have stands : there.tree.get? (start.here.place target) = some (.file []) := by
    rw [← content_eq_some_iff, opened.content, List.lookup_cons, beq_self_eq_true]
    rfl
  have filled : Leaves start [(start.here.place target, bytes), (start.here.place target, [])]
      { reached with here := there.put (start.here.place target) (.file bytes) } :=
    empty.trans (leaves_of_rewritten (opened.plain.rewritten_file stands bytes))
  apply ensures_log.imp
  rintro _ _ rfl
  exact ⟨bytes, written, filled.overwritten.log _⟩

omit named in
/-- Scanning enters a record and changes nothing else. -/
theorem ensures_sources (homes : Homes) (patterns : List CodeText)
    (kept : ∀ lost, SourceScan.scan homes start.here patterns settings.sourceDirectory =
      .error lost → bad start) :
    Ensures (sources homes settings patterns) start
      (fun found left =>
        SourceScan.scan homes start.here patterns settings.sourceDirectory = .ok found ∧
          Leaves start [] left) bad := by
  unfold sources
  apply ensures_get.bind
  rintro _ _ ⟨rfl, rfl⟩
  apply (ensures_attempt kept).bind
  rintro found _ ⟨scanned, rfl⟩
  apply ensures_log.bind
  rintro _ _ rfl
  apply ensures_pure
  exact ⟨scanned, leaves_log plain _⟩

/-- Reading a header enters a record and changes nothing else. -/
theorem ensures_readDocument (source : SourceFile) (kept : ∀ left, Leaves start [] left → bad left) :
    Ensures (readDocument codecs settings source) start
      (fun document left => (∃ text, Reads codec start.here source.absolute text ∧
        Document.build source.path text = .ok document) ∧ Leaves start [] left) bad := by
  have unchanged := kept start (.refl plain)
  unfold readDocument
  apply (ensures_readText named source.absolute unchanged).bind
  rintro text _ ⟨read, rfl⟩
  apply (ensures_attempt fun _ _ => unchanged).bind
  rintro document _ ⟨built, rfl⟩
  apply ensures_log.bind
  rintro _ _ rfl
  apply ensures_pure
  exact ⟨⟨text, read, built⟩, leaves_log plain _⟩

/-- Processing a header replaces its page. -/
theorem ensures_writeHeaderPage (output : Path) (source : SourceFile)
    (kept : ∀ left, Leaves start [] left → bad left)
    (emptied : ∀ left,
      Leaves start [(start.here.place (pagePath settings output source.path), [])] left → bad left) :
    Ensures (writeHeaderPage codecs settings output source) start
      (fun target left => target = pagePath settings output source.path ∧
        ∃ text document shown bytes, Reads codec start.here source.absolute text ∧
          Document.build source.path text = .ok document ∧
          (page settings (settings.project ++ codes ": " ++ source.path)).ofDocument document
            settings.restoring = .ok shown ∧
          codec.write shown = .ok bytes ∧ Leaves start [(start.here.place target, bytes)] left)
      bad := by
  unfold writeHeaderPage
  apply (ensures_readDocument plain named source kept).bind
  rintro document reached ⟨⟨text, read, built⟩, leaves⟩
  apply (ensures_attempt fun _ _ => kept reached leaves).bind
  rintro shown _ ⟨rendered, rfl⟩
  apply (ensures_writePage leaves.plain named _ shown
    (fun left later => kept left (leaves.trans later))
    fun left later => emptied left (leaves.place_eq _ ▸ leaves.trans later)).bind
  rintro _ left ⟨bytes, written, later⟩
  apply ensures_pure
  refine ⟨rfl, text, document, shown, bytes, read, built, rendered, written, ?_⟩
  exact leaves.place_eq _ ▸ leaves.trans later

/-- Writing the index page replaces that page. -/
theorem ensures_writeIndex (output : Path) (kept : ∀ left, Leaves start [] left → bad left)
    (emptied : ∀ left,
      Leaves start [(start.here.place (pagePath settings output (codes "index")), [])] left →
        bad left) :
    Ensures (writeIndex codecs settings output) start
      (fun target left => target = pagePath settings output (codes "index") ∧
        ∃ text bytes, Reads codec start.here settings.overview text ∧
          codec.write ((page settings settings.project).ofText text) = .ok bytes ∧
          Leaves start [(start.here.place target, bytes)] left) bad := by
  have unchanged := kept start (.refl plain)
  unfold writeIndex
  apply ensures_get.bind
  rintro _ _ ⟨rfl, rfl⟩
  apply (ensures_attempt fun _ _ => unchanged).bind
  rintro isFile _ ⟨_, rfl⟩
  cases isFile with
  | false =>
      apply (ensures_throw unchanged).bind
      intro _ _ never
      exact never.elim
  | true =>
      apply (ensures_readText named settings.overview unchanged).bind
      rintro text _ ⟨read, rfl⟩
      apply (ensures_writePage plain named _ _ kept emptied).bind
      rintro _ left ⟨bytes, written, leaves⟩
      apply ensures_pure
      exact ⟨rfl, text, bytes, read, written, leaves⟩

end

end HeaderBook.Generation
