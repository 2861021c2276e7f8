import Mathlib.Data.List.Nodup
import HeaderBook.Proofs.LoadedSettings
import HeaderBook.Proofs.PagePlaces
import HeaderBook.Proofs.RunEffects

/-!
# One page after another

A generation takes the scanned files one after another. `Progress` says what it has done
when some of them are done: the page of each header among them is there, made from what the
header held at the start, and every other file is as it was. One file is one step, and the
steps do not disturb each other, because pages lie at different places and none of them is
a file that is still to be read.

A page is there when its file holds what the codec writes for its markup. That is the encoded
markup for a codec that keeps nothing back.
-/

namespace HeaderBook.Generation

variable {platform : Platform} {codec : Codec} {settings : Settings} {output : Path}
  {start reached left : Workspace}

/-! ### What pages hold -/

/-- The text that the file at a path holds. -/
def Holds (codec : Codec) (here : Directory) (path : Path) (text : Text) : Prop :=
  ∃ bytes, here.tree.content (here.place path) = some bytes ∧ codec.readText bytes = .ok text

/-- The markup of the page of a header: that of the document which is built from what the
header holds. -/
def IsHeaderMarkup (codec : Codec) (settings : Settings) (here : Directory) (file : SourceFile)
    (markup : CodeText) : Prop :=
  ∃ text document, Holds codec here file.absolute text ∧
    Document.build file.path text = .ok document ∧
    (page settings (settings.project ++ codes ": " ++ file.path)).ofDocument document
      settings.restoring = .ok markup

/-- The markup of the index page: that of what the overview holds. -/
def IsIndexMarkup (codec : Codec) (settings : Settings) (here : Directory) (markup : CodeText) :
    Prop :=
  ∃ text, Holds codec here settings.overview text ∧
    markup = (page settings settings.project).ofText text

/-- The file at a location holds what the codec writes for a markup. -/
def Written (codec : Codec) (here : Directory) (location : Location) (markup : CodeText) : Prop :=
  ∃ bytes, codec.write markup = .ok bytes ∧ here.tree.content location = some bytes

/-- The file at a location holds a markup as it is encoded. -/
def Encoded (codec : Codec) (here : Directory) (location : Location) (markup : CodeText) : Prop :=
  ∃ bytes, codec.encode markup = .ok bytes ∧ here.tree.content location = some bytes

/-- The codec writes a text as it encodes it, and keeps nothing back. -/
def WritesWhole (codec : Codec) (text : CodeText) : Prop :=
  codec.write text = codec.encode text

/-- A file holds one text at most. -/
theorem Holds.unique {here : Directory} {path : Path} {text text' : Text}
    (holds : Holds codec here path text) (holds' : Holds codec here path text') : text = text' := by
  obtain ⟨bytes, stands, read⟩ := holds
  obtain ⟨bytes', stands', read'⟩ := holds'
  obtain rfl := Option.some.inj (stands.symm.trans stands')
  exact Except.ok.inj (read.symm.trans read')

/-- A header has one page at most. -/
theorem IsHeaderMarkup.unique {here : Directory} {file : SourceFile} {markup markup' : CodeText}
    (made : IsHeaderMarkup codec settings here file markup)
    (made' : IsHeaderMarkup codec settings here file markup') : markup = markup' := by
  obtain ⟨text, document, holds, built, shown⟩ := made
  obtain ⟨text', document', holds', built', shown'⟩ := made'
  obtain rfl := holds.unique holds'
  obtain rfl := Except.ok.inj (built.symm.trans built')
  exact Except.ok.inj (shown.symm.trans shown')

/-- There is one index page at most. -/
theorem IsIndexMarkup.unique {here : Directory} {markup markup' : CodeText}
    (made : IsIndexMarkup codec settings here markup)
    (made' : IsIndexMarkup codec settings here markup') : markup = markup' := by
  obtain ⟨text, holds, rfl⟩ := made
  obtain ⟨text', holds', rfl⟩ := made'
  rw [holds.unique holds']

/-- What was written is the encoded markup exactly where the codec keeps nothing back. -/
theorem Written.encoded_iff {here : Directory} {location : Location} {markup : CodeText}
    (written : Written codec here location markup) :
    Encoded codec here location markup ↔ WritesWhole codec markup := by
  obtain ⟨bytes, wrote, stands⟩ := written
  constructor
  · rintro ⟨bytes', encoded, stands'⟩
    obtain rfl := Option.some.inj (stands.symm.trans stands')
    exact wrote.trans encoded.symm
  · intro whole
    exact ⟨bytes, whole.symm.trans wrote, stands⟩

/-- A codec that writes fewer bytes than it encodes keeps something back. -/
theorem not_writesWhole {text : CodeText} {bytes : Bytes} {shorter length : Nat}
    (wrote : codec.write text = .ok (bytes.take shorter)) (encoded : codec.encode text = .ok bytes)
    (measured : bytes.length = length) (less : shorter < length) : ¬ WritesWhole codec text := by
  intro whole
  have same := Except.ok.inj (wrote.symm.trans (whole.trans encoded))
  have lengths := congrArg List.length same
  rw [List.length_take, measured] at lengths
  omega

/-- A file holds nothing but what was written. -/
theorem Written.content_eq {here : Directory} {location : Location} {markup : CodeText}
    {bytes : Bytes} (written : Written codec here location markup)
    (wrote : codec.write markup = .ok bytes) : here.tree.content location = some bytes := by
  obtain ⟨other, wrote', stands⟩ := written
  obtain rfl := Except.ok.inj (wrote.symm.trans wrote')
  exact stands

/-- The headers among scanned files. -/
def headers (settings : Settings) (found : List SourceFile) : List SourceFile :=
  found.filter fun file => settings.headerRule.Accepts file.path

/-- The paths of all pages. -/
def pagePaths (settings : Settings) (output : Path) (found : List SourceFile) : List Path :=
  (headers settings found).map (fun file => pagePath settings output file.path) ++
    [pagePath settings output (codes "index")]

/-- No page is a file that is read, and the log file is neither. -/
structure Apart (settings : Settings) (output : Path) (start : Workspace)
    (found : List SourceFile) : Prop where
  sources : ∀ path ∈ pagePaths settings output found, ∀ file ∈ found,
    start.here.place path ≠ start.here.place file.absolute
  overview : ∀ path ∈ pagePaths settings output found,
    start.here.place path ≠ start.here.place settings.overview
  pagesUnlogged : ∀ path ∈ pagePaths settings output found,
    start.logFile ≠ some (start.here.place path)
  sourcesUnlogged : ∀ file ∈ found, start.logFile ≠ some (start.here.place file.absolute)
  overviewUnlogged : start.logFile ≠ some (start.here.place settings.overview)

/-- The files that a generation finds. -/
def Finds (platform : Platform) (settings : Settings) (start : Workspace)
    (found : List SourceFile) : Prop :=
  SourceScan.scan platform.homes start.here settings.excludedPaths settings.sourceDirectory =
    .ok found

instance (platform : Platform) (settings : Settings) (start : Workspace) (found : List SourceFile) :
    Decidable (Finds platform settings start found) :=
  inferInstanceAs (Decidable (_ = _))

/-- What a generation in a directory relies on: its settings are loaded ones, its files stand
in a tree without links, and it writes no file that it reads. -/
structure Orderly (platform : Platform) (settings : Settings) (output : Path) (start : Workspace) :
    Prop where
  loaded : Loaded platform.codecs settings
  noSlash : Path.slash ∉ settings.pageExtension
  plain : start.here.Plain
  named : start.here.tree.WellNamed
  apart : ∀ found, Finds platform settings start found → Apart settings output start found

/-- Where there is no log file, it is enough that no page is a file that is read. -/
theorem Orderly.of_unlogged {found : List SourceFile} (loaded : Loaded platform.codecs settings)
    (noSlash : Path.slash ∉ settings.pageExtension) (plain : start.here.Plain)
    (named : start.here.tree.WellNamed) (unlogged : start.logFile = none)
    (scanned : Finds platform settings start found)
    (sources : ∀ path ∈ pagePaths settings output found, ∀ file ∈ found,
      start.here.place path ≠ start.here.place file.absolute)
    (overview : ∀ path ∈ pagePaths settings output found,
      start.here.place path ≠ start.here.place settings.overview) :
    Orderly platform settings output start := by
  have free (location : Location) : start.logFile ≠ some location := by
    rw [unlogged]
    simp
  refine ⟨loaded, noSlash, plain, named, fun other listed => ?_⟩
  obtain rfl := Except.ok.inj (scanned.symm.trans listed)
  exact ⟨sources, overview, fun _ _ => free _, fun _ _ => free _, free _⟩

/-- A path is written out in one way only, so only that one has to be orderly. -/
theorem Orderly.of_expand {directory : Path} (orderly : Orderly platform settings directory start)
    (expanded : platform.homes.expand output = .ok directory) :
    ∀ other, platform.homes.expand output = .ok other → Orderly platform settings other start := by
  intro other given
  rw [← Except.ok.inj (expanded.symm.trans given)]
  exact orderly

/-! ### One page after another -/

/-- The page of a header is there, made from what the header held at the start. -/
def Complete (codec : Codec) (settings : Settings) (output : Path) (start left : Workspace)
    (file : SourceFile) : Prop :=
  ∃ markup, IsHeaderMarkup codec settings start.here file markup ∧
    Written codec left.here (start.here.place (pagePath settings output file.path)) markup

/-- The files in `done` are done: their pages are complete, and no other file has changed. -/
structure Progress (codec : Codec) (settings : Settings) (output : Path) (start : Workspace)
    (done : List SourceFile) (left : Workspace) : Prop where
  plain : left.here.Plain
  current : left.here.current = start.here.current
  logFile : left.logFile = start.logFile
  complete : ∀ file ∈ headers settings done, Complete codec settings output start left file
  others : ∀ location, start.logFile ≠ some location →
    (∀ file ∈ headers settings done,
      start.here.place (pagePath settings output file.path) ≠ location) →
    left.here.tree.content location = start.here.tree.content location

/-- The generation has stopped after the files in `done`, at the page of a path: that page
may have been emptied, and no other file has changed. -/
structure Stopped (codec : Codec) (settings : Settings) (output : Path) (start : Workspace)
    (done : List SourceFile) (target : Path) (left : Workspace) : Prop where
  complete : ∀ file ∈ headers settings done, Complete codec settings output start left file
  others : ∀ location, start.logFile ≠ some location →
    (∀ file ∈ headers settings done,
      start.here.place (pagePath settings output file.path) ≠ location) →
    left.here.tree.content location = start.here.tree.content location ∨
      location = start.here.place target ∧ left.here.tree.content location = some []

/-- Headers are taken list by list. -/
theorem headers_append (before after : List SourceFile) :
    headers settings (before ++ after) = headers settings before ++ headers settings after :=
  List.filter_append before after

/-- A file that is accepted is a header. -/
theorem headers_accepted {file : SourceFile} (accepted : settings.headerRule.Accepts file.path)
    (rest : List SourceFile) : headers settings (file :: rest) = file :: headers settings rest :=
  List.filter_cons_of_pos (by simpa using accepted)

/-- A file that is rejected is no header. -/
theorem headers_rejected {file : SourceFile} (rejected : ¬ settings.headerRule.Accepts file.path)
    (rest : List SourceFile) : headers settings (file :: rest) = headers settings rest :=
  List.filter_cons_of_neg (by simpa using rejected)

/-- An accepted file at the end is the last header. -/
theorem headers_concat_accepted {file : SourceFile} (accepted : settings.headerRule.Accepts file.path)
    (done : List SourceFile) : headers settings (done ++ [file]) = headers settings done ++ [file] := by
  rw [headers_append, headers_accepted accepted]
  rfl

/-- A rejected file at the end adds no header. -/
theorem headers_concat_rejected {file : SourceFile}
    (rejected : ¬ settings.headerRule.Accepts file.path) (done : List SourceFile) :
    headers settings (done ++ [file]) = headers settings done := by
  rw [headers_append, headers_rejected rejected]
  exact List.append_nil _

/-- Every header has a page. -/
theorem mem_pagePaths_of_mem_headers {found : List SourceFile} {file : SourceFile}
    (member : file ∈ headers settings found) :
    pagePath settings output file.path ∈ pagePaths settings output found :=
  List.mem_append_left _ (List.mem_map_of_mem member)

/-- The index page is one of the pages. -/
theorem index_mem_pagePaths (settings : Settings) (output : Path) (found : List SourceFile) :
    pagePath settings output (codes "index") ∈ pagePaths settings output found :=
  List.mem_append_right _ (List.mem_singleton_self _)

section

variable {done : List SourceFile} {changes : List (Location × Bytes)}

/-- At the start nothing is done. -/
theorem Progress.initial (plain : start.here.Plain) : Progress codec settings output start [] start :=
  ⟨plain, rfl, rfl, fun _ member => absurd member List.not_mem_nil, fun _ _ _ => rfl⟩

/-- A file that is no header is done without a page. -/
theorem Progress.skip {file : SourceFile} (progress : Progress codec settings output start done left)
    (rejected : ¬ settings.headerRule.Accepts file.path) :
    Progress codec settings output start (done ++ [file]) left := by
  have same := headers_concat_rejected rejected done
  exact ⟨progress.plain, progress.current, progress.logFile, same ▸ progress.complete,
    same ▸ progress.others⟩

variable (progress : Progress codec settings output start done reached)

include progress

/-- Paths lead where they led at the start. -/
theorem Progress.place_eq (path : Path) : reached.here.place path = start.here.place path :=
  Directory.place_eq_of_current progress.current path

/-- A page stays complete when something else is written. -/
theorem Progress.complete_of_leaves (leaves : Leaves reached changes left) {file : SourceFile}
    (member : file ∈ headers settings done)
    (unlogged : start.logFile ≠ some (start.here.place (pagePath settings output file.path)))
    (unwritten : changes.lookup (start.here.place (pagePath settings output file.path)) = none) :
    Complete codec settings output start left file := by
  obtain ⟨markup, made, bytes, wrote, stands⟩ := progress.complete file member
  refine ⟨markup, made, bytes, wrote, ?_⟩
  rw [leaves.content _ (progress.logFile ▸ unlogged), unwritten, Option.none_or, stands]

/-- A file that was not written holds what it held at the start. -/
theorem Progress.holds_of_reads {path : Path} {text : Text}
    (unlogged : start.logFile ≠ some (start.here.place path))
    (unwritten : ∀ file ∈ headers settings done,
      start.here.place (pagePath settings output file.path) ≠ start.here.place path)
    (reads : Reads codec reached.here path text) : Holds codec start.here path text := by
  obtain ⟨bytes, read, decoded⟩ := reads
  refine ⟨bytes, ?_, decoded⟩
  rw [← progress.others _ unlogged unwritten, ← progress.place_eq]
  exact progress.plain.content_of_read read

variable (unlogged : ∀ file ∈ headers settings done,
  start.logFile ≠ some (start.here.place (pagePath settings output file.path)))

include unlogged

/-- Where nothing is written, what is done stays done. -/
theorem Progress.kept (leaves : Leaves reached [] left) :
    Progress codec settings output start done left := by
  refine ⟨leaves.plain, leaves.current.trans progress.current,
    leaves.logFile.trans progress.logFile, fun file member => ?_, fun location free fresh => ?_⟩
  · exact progress.complete_of_leaves leaves member (unlogged file member) rfl
  · rw [leaves.content location (progress.logFile ▸ free), progress.others location free fresh]
    rfl

/-- A generation that stops without having written has stopped at any page. -/
theorem Progress.stopped (leaves : Leaves reached [] left) (target : Path) :
    Stopped codec settings output start done target left :=
  have kept := progress.kept unlogged leaves
  ⟨kept.complete, fun location free fresh => .inl (kept.others location free fresh)⟩

variable {target : Path}
  (fresh : ∀ file ∈ headers settings done,
    start.here.place (pagePath settings output file.path) ≠ start.here.place target)

include fresh

/-- What has been done stays done, and a page that is written last is there. -/
theorem Progress.written {bytes : Bytes}
    (leaves : Leaves reached [(start.here.place target, bytes)] left)
    (free : start.logFile ≠ some (start.here.place target)) :
    (∀ file ∈ headers settings done, Complete codec settings output start left file) ∧
      left.here.tree.content (start.here.place target) = some bytes ∧
      ∀ location, start.logFile ≠ some location →
        (∀ file ∈ headers settings done,
          start.here.place (pagePath settings output file.path) ≠ location) →
        start.here.place target ≠ location →
        left.here.tree.content location = start.here.tree.content location := by
  refine ⟨fun file member => ?_, ?_, fun location free others apart => ?_⟩
  · refine progress.complete_of_leaves leaves member (unlogged file member) ?_
    rw [List.lookup_cons, beq_eq_false_iff_ne.mpr (fresh file member)]
    rfl
  · rw [leaves.content _ (progress.logFile ▸ free), List.lookup_cons, beq_self_eq_true]
    rfl
  · rw [leaves.content location (progress.logFile ▸ free), progress.others location free others,
      List.lookup_cons, beq_eq_false_iff_ne.mpr (Ne.symm apart)]
    rfl

/-- A header is done when its page has been written. -/
theorem Progress.page {file : SourceFile} {markup : CodeText} {bytes : Bytes}
    (equal : target = pagePath settings output file.path)
    (accepted : settings.headerRule.Accepts file.path)
    (leaves : Leaves reached [(start.here.place target, bytes)] left)
    (free : start.logFile ≠ some (start.here.place target))
    (made : IsHeaderMarkup codec settings start.here file markup)
    (wrote : codec.write markup = .ok bytes) :
    Progress codec settings output start (done ++ [file]) left := by
  obtain ⟨complete, present, others⟩ := progress.written unlogged fresh leaves free
  subst equal
  refine ⟨leaves.plain, leaves.current.trans progress.current,
    leaves.logFile.trans progress.logFile, ?_, ?_⟩
  · rw [headers_concat_accepted accepted, List.forall_mem_append, List.forall_mem_singleton]
    exact ⟨complete, markup, made, bytes, wrote, present⟩
  · intro location unlogged apart
    rw [headers_concat_accepted accepted, List.forall_mem_append, List.forall_mem_singleton] at apart
    exact others location unlogged apart.1 apart.2

/-- A generation may stop when it has emptied a page. -/
theorem Progress.emptied (leaves : Leaves reached [(start.here.place target, [])] left)
    (free : start.logFile ≠ some (start.here.place target)) :
    Stopped codec settings output start done target left := by
  obtain ⟨complete, empty, others⟩ := progress.written unlogged fresh leaves free
  refine ⟨complete, fun location unlogged apart => ?_⟩
  by_cases here : start.here.place target = location
  · rw [← here]
    exact .inr ⟨rfl, empty⟩
  · exact .inl (others location unlogged apart here)

end

/-! ### The steps of a generation -/

/-- What a generation notes of a file: a page, or why there is none. -/
def account (settings : Settings) (output : Path) (file : SourceFile) : Skipped ⊕ Path :=
  match settings.headerRule.rejection? file.path with
  | some rejection => .inl ⟨file.path, rejection⟩
  | none => .inr (pagePath settings output file.path)

/-- Every scanned file is accounted for, in the order of the scan: there is a page for it,
or it is skipped for a reason. -/
inductive Accounted (settings : Settings) (output : Path) :
    List SourceFile → List Path → List Skipped → Prop where
  | nil : Accounted settings output [] [] []
  | page {file : SourceFile} {files : List SourceFile} {pages : List Path} {skipped : List Skipped}
      (accepted : settings.headerRule.Accepts file.path)
      (rest : Accounted settings output files pages skipped) :
      Accounted settings output (file :: files) (pagePath settings output file.path :: pages) skipped
  | skip {file : SourceFile} {files : List SourceFile} {pages : List Path} {skipped : List Skipped}
      {rejection : Rejection} (rejected : settings.headerRule.Rejects file.path rejection)
      (rest : Accounted settings output files pages skipped) :
      Accounted settings output (file :: files) pages (⟨file.path, rejection⟩ :: skipped)

/-- How a generation breaks off that has found its files: at the page of a header, or at
the index page when all headers are done. -/
inductive BrokenOff (codec : Codec) (settings : Settings) (output : Path) (start : Workspace)
    (found : List SourceFile) (left : Workspace) : Prop where
  | header {done after : List SourceFile} {file : SourceFile} (split : found = done ++ file :: after)
      (accepted : settings.headerRule.Accepts file.path)
      (stopped : Stopped codec settings output start done (pagePath settings output file.path) left)
  | index
      (stopped : Stopped codec settings output start found (pagePath settings output (codes "index")) left)

section

variable {found : List SourceFile} (orderly : Orderly platform settings output start)
  (scanned : Finds platform settings start found)

include orderly scanned

/-- The scanned files have different paths. -/
theorem nodup_paths : (found.map SourceFile.path).Nodup := by
  obtain ⟨root, top, resolved, standing⟩ := SourceScan.exists_root_of_scan scanned
  exact SourceScan.nodup_scan orderly.named standing resolved scanned

/-- Scanned files whose pages lie at one place are the same. -/
theorem eq_of_place {file other : SourceFile} (listed : file ∈ found) (listed' : other ∈ found)
    (same : start.here.place (pagePath settings output other.path) =
      start.here.place (pagePath settings output file.path)) : other = file := by
  have legal (source : SourceFile) (member : source ∈ found) : LegalPath source.path :=
    legalPath_of_mem_scan orderly.named scanned member
  have equal : other.path = file.path :=
    eq_of_place_pagePath orderly.noSlash (legal other listed') (legal file listed) same
  exact List.inj_on_of_nodup_map (nodup_paths orderly scanned) listed' listed equal

/-- The pages of two scanned files lie at different places. -/
theorem place_ne_of_split {done after : List SourceFile} {file other : SourceFile}
    (split : found = done ++ file :: after) (member : other ∈ done) :
    start.here.place (pagePath settings output other.path) ≠
      start.here.place (pagePath settings output file.path) := by
  intro same
  obtain rfl := eq_of_place orderly scanned (by simp [split]) (by simp [split, member]) same
  have distinct : found.Nodup := List.Nodup.of_map _ (nodup_paths orderly scanned)
  rw [split, List.nodup_append] at distinct
  exact distinct.2.2 _ member _ List.mem_cons_self rfl

/-- The index page lies beside the pages of headers. -/
theorem place_ne_index {file : SourceFile} (member : file ∈ headers settings found) :
    start.here.place (pagePath settings output file.path) ≠
      start.here.place (pagePath settings output (codes "index")) := by
  obtain ⟨listed, accepted⟩ := List.mem_filter.mp member
  intro same
  have equal := eq_of_place_pagePath orderly.noSlash
    (legalPath_of_mem_scan orderly.named scanned listed) legalPath_index same
  rw [equal, decide_eq_true_eq] at accepted
  exact orderly.loaded.not_accepts_index accepted

variable (named : platform.codecs.find settings.encoding = .ok codec)

include named

/-- One step of a generation: a file is done, or the generation breaks off at its page. -/
theorem ensures_processFile {done after : List SourceFile} {file : SourceFile}
    (split : found = done ++ file :: after)
    (progress : Progress codec settings output start done reached) :
    Ensures (processFile platform.codecs settings output file) reached
      (fun result left => result = account settings output file ∧
        Progress codec settings output start (done ++ [file]) left)
      (BrokenOff codec settings output start found) := by
  have apart := orderly.apart found scanned
  have listed (other : SourceFile) (member : other ∈ headers settings done) :
      pagePath settings output other.path ∈ pagePaths settings output found := by
    refine mem_pagePaths_of_mem_headers ?_
    rw [split, headers_append]
    exact List.mem_append_left _ member
  have unlogged (other : SourceFile) (member : other ∈ headers settings done) :=
    apart.pagesUnlogged _ (listed other member)
  unfold processFile
  apply ensures_processing
  cases rejected : settings.headerRule.rejection? file.path with
  | some rejection =>
      apply ensures_log.bind
      rintro _ _ rfl
      apply ensures_pure
      have rejects : ¬ settings.headerRule.Accepts file.path := by
        rw [← HeaderRule.rejection?_eq_none_iff, rejected]
        simp
      refine ⟨by rw [account, rejected], Progress.skip (progress.kept unlogged ?_) rejects⟩
      exact (@leaves_log (reached.enter file.path) progress.plain _).processed
  | none =>
      have accepted := HeaderRule.rejection?_eq_none_iff.mp rejected
      have own : file ∈ headers settings found := by
        rw [split, headers_append, headers_accepted accepted]
        exact List.mem_append_right _ List.mem_cons_self
      have path : pagePath settings output file.path ∈ pagePaths settings output found :=
        mem_pagePaths_of_mem_headers own
      have free := apart.pagesUnlogged _ path
      -- The page of this header is none of those that are done, so writing it leaves them alone.
      have fresh (other : SourceFile) (member : other ∈ headers settings done) :=
        place_ne_of_split orderly scanned split (List.mem_filter.mp member).1
      have placed := progress.place_eq (pagePath settings output file.path)
      have entered : (reached.enter file.path).here.Plain := progress.plain
      refine Ensures.bind (ensures_writeHeaderPage entered named output file
        (fun left leaves => ?_) fun left leaves => ?_) ?_
      · exact .header split accepted (progress.stopped unlogged leaves.processed _)
      · exact .header split accepted
          (progress.emptied unlogged fresh (placed ▸ leaves.processed) free)
      · rintro _ left ⟨rfl, text, document, markup, bytes, read, built, shown, wrote, leaves⟩
        apply ensures_pure
        refine ⟨by rw [account, rejected], ?_⟩
        have member : file ∈ found := (List.mem_filter.mp own).1
        -- No page is a source, so what is read now is what was there at the start.
        have holds : Holds codec start.here file.absolute text :=
          progress.holds_of_reads (apart.sourcesUnlogged file member)
            (fun other before => apart.sources _ (listed other before) file member) read
        exact progress.page unlogged fresh rfl accepted (placed ▸ leaves.processed) free
          ⟨text, document, holds, built, shown⟩ wrote

omit orderly scanned named in
/-- The files that are done account for themselves. -/
theorem pages_account (found : List SourceFile) :
    Accounted settings output found ((found.map (account settings output)).filterMap Sum.getRight?)
      ((found.map (account settings output)).filterMap Sum.getLeft?) := by
  induction found with
  | nil => exact .nil
  | cons file found inductionHypothesis =>
      rw [List.map_cons]
      cases rejected : settings.headerRule.rejection? file.path with
      | some rejection =>
          have noted : account settings output file = .inl ⟨file.path, rejection⟩ := by
            rw [account, rejected]
          rw [noted]
          exact .skip (HeaderRule.rejection?_eq_some_iff.mp rejected) inductionHypothesis
      | none =>
          have noted : account settings output file = .inr (pagePath settings output file.path) := by
            rw [account, rejected]
          rw [noted]
          exact .page (HeaderRule.rejection?_eq_none_iff.mp rejected) inductionHypothesis

/-- All scanned files are done one after another, or the generation breaks off. -/
theorem ensures_processFiles (progress : Progress codec settings output start [] reached) :
    Ensures (found.mapM (processFile platform.codecs settings output)) reached
      (fun results left => results = found.map (account settings output) ∧
        Progress codec settings output start found left)
      (BrokenOff codec settings output start found) := by
  refine ensures_mapM (fun done results left => results = done.map (account settings output) ∧
    Progress codec settings output start done left) ⟨rfl, progress⟩ ?_
  rintro before file after results between split ⟨rfl, progress⟩
  apply (ensures_processFile orderly scanned named split progress).imp
  rintro result left ⟨rfl, progress⟩
  exact ⟨by rw [List.map_append, List.map_singleton], progress⟩

/-- The index page is written when all files are done. -/
theorem ensures_index (progress : Progress codec settings output start found reached) :
    Ensures (writeIndex platform.codecs settings output) reached
      (fun target left => target = pagePath settings output (codes "index") ∧
        ∃ markup bytes, IsIndexMarkup codec settings start.here markup ∧
          codec.write markup = .ok bytes ∧ Leaves reached [(start.here.place target, bytes)] left)
      (BrokenOff codec settings output start found) := by
  have apart := orderly.apart found scanned
  have listed (file : SourceFile) (member : file ∈ headers settings found) :
      pagePath settings output file.path ∈ pagePaths settings output found :=
    mem_pagePaths_of_mem_headers member
  have unlogged (file : SourceFile) (member : file ∈ headers settings found) :=
    apart.pagesUnlogged _ (listed file member)
  have placed := progress.place_eq (pagePath settings output (codes "index"))
  refine (ensures_writeIndex progress.plain named output (fun left leaves => ?_)
    fun left leaves => ?_).imp ?_
  · exact .index (progress.stopped unlogged leaves _)
  · have fresh (file : SourceFile) (member : file ∈ headers settings found) :=
      place_ne_index orderly scanned member
    have free := apart.pagesUnlogged _ (index_mem_pagePaths settings output found)
    exact .index (progress.emptied unlogged fresh (placed ▸ leaves) free)
  · rintro _ left ⟨rfl, text, bytes, read, wrote, leaves⟩
    have holds : Holds codec start.here settings.overview text :=
      progress.holds_of_reads apart.overviewUnlogged
        (fun file member => apart.overview _ (listed file member)) read
    exact ⟨rfl, _, bytes, ⟨text, holds, rfl⟩, wrote, placed ▸ leaves⟩

end

end HeaderBook.Generation
