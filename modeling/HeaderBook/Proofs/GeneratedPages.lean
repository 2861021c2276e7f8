import HeaderBook.Platform.Standard
import HeaderBook.Proofs.PageProgress

/-!
# The pages that a generation leaves

A generation that succeeds accounts for every scanned file, and one that fails has made the
pages of the first headers and has at most emptied the page it was writing. Both follow from
the steps that it takes.

A page holds its markup as it is encoded unless the codec keeps something back. The encoding
for names of hosts keeps the last label back, and its pages are cut off.
-/

namespace HeaderBook.Generation

variable {platform : Platform} {codec : Codec} {settings : Settings} {output : Path}
  {start reached left : Workspace}

/-! ### What a generation comes to -/

/-- What a generation that succeeds leaves: every scanned file is accounted for, the pages
are there, and no other file has changed. -/
structure Finished (codec : Codec) (settings : Settings) (output : Path) (start : Workspace)
    (found : List SourceFile) (report : Report) (left : Workspace) : Prop where
  directory : report.output = output
  accounted : Accounted settings output found report.pages report.skipped
  index : report.index = pagePath settings output (codes "index")
  complete : ∀ file ∈ headers settings found, Complete codec settings output start left file
  indexPage : ∃ markup, IsIndexMarkup codec settings start.here markup ∧
    Written codec left.here (start.here.place report.index) markup
  others : ∀ location, start.logFile ≠ some location →
    location ∉ (pagePaths settings output found).map start.here.place →
    left.here.tree.content location = start.here.tree.content location

/-- The path from the source directory to which the page after the first `number` pages
belongs. After the last header it is that of the index page. -/
def pathAfter (files : List SourceFile) (number : Nat) : CodeText :=
  (files[number]?).elim (codes "index") SourceFile.path

/-- What a generation that fails leaves, `number` headers done: their pages are there, and of
the other files only the page that was being written can have changed, and if so it is
empty. The index page is as it was unless all headers are done. -/
structure Interrupted (codec : Codec) (settings : Settings) (output : Path) (start : Workspace)
    (found : List SourceFile) (number : Nat) (left : Workspace) : Prop where
  bounded : number ≤ (headers settings found).length
  complete : ∀ file ∈ (headers settings found).take number,
    Complete codec settings output start left file
  index : number < (headers settings found).length →
    left.here.tree.content (start.here.place (pagePath settings output (codes "index"))) =
      start.here.tree.content (start.here.place (pagePath settings output (codes "index")))
  others : ∀ location, start.logFile ≠ some location →
    (∀ file ∈ (headers settings found).take number,
      start.here.place (pagePath settings output file.path) ≠ location) →
    left.here.tree.content location = start.here.tree.content location ∨
      location = start.here.place
        (pagePath settings output (pathAfter (headers settings found) number)) ∧
      left.here.tree.content location = some []

section

variable {found : List SourceFile} (orderly : Orderly platform settings output start)
  (scanned : Finds platform settings start found)

include orderly scanned

/-- A generation has finished when all files are done and the index page is written. -/
theorem Progress.finished {markup : CodeText} {bytes : Bytes}
    (progress : Progress codec settings output start found reached)
    (made : IsIndexMarkup codec settings start.here markup) (wrote : codec.write markup = .ok bytes)
    (leaves : Leaves reached [(start.here.place (pagePath settings output (codes "index")), bytes)] left) :
    Finished codec settings output start found
      { output
        pages := (found.map (account settings output)).filterMap Sum.getRight?
        skipped := (found.map (account settings output)).filterMap Sum.getLeft?
        index := pagePath settings output (codes "index") } left := by
  have apart := orderly.apart found scanned
  have listed (file : SourceFile) (member : file ∈ headers settings found) :
      pagePath settings output file.path ∈ pagePaths settings output found :=
    mem_pagePaths_of_mem_headers member
  have last := index_mem_pagePaths settings output found
  obtain ⟨complete, present, others⟩ := progress.written
    (fun file member => apart.pagesUnlogged _ (listed file member))
    (fun file member => place_ne_index orderly scanned member) leaves (apart.pagesUnlogged _ last)
  refine ⟨rfl, pages_account found, rfl, complete, ⟨markup, made, bytes, wrote, present⟩, ?_⟩
  intro location unlogged outside
  rw [List.mem_map, not_exists] at outside
  apply others location unlogged
  · intro file member same
    exact outside _ ⟨listed file member, same⟩
  · intro same
    exact outside _ ⟨last, same⟩

/-- A generation that breaks off has done the headers before the page it was at. -/
theorem BrokenOff.exists_interrupted (broken : BrokenOff codec settings output start found left) :
    ∃ number, Interrupted codec settings output start found number left := by
  cases broken with
  | @header done after file split accepted stopped =>
      have shape : headers settings found =
          headers settings done ++ file :: headers settings after := by
        rw [split, headers_append, headers_accepted accepted]
      have next : pathAfter (headers settings found) (headers settings done).length = file.path := by
        rw [shape, pathAfter, List.getElem?_append_right (Nat.le_refl _), Nat.sub_self]
        rfl
      refine ⟨(headers settings done).length, ?_, ?_, fun _ => ?_, ?_⟩
      · rw [shape, List.length_append]
        omega
      · rw [shape, List.take_left]
        exact stopped.complete
      · have unlogged := (orderly.apart found scanned).pagesUnlogged _
          (index_mem_pagePaths settings output found)
        have fresh (other : SourceFile) (member : other ∈ headers settings found) :=
          place_ne_index orderly scanned member
        rw [shape, List.forall_mem_append, List.forall_mem_cons] at fresh
        rcases stopped.others _ unlogged fresh.1 with same | ⟨equal, _⟩
        · exact same
        · exact absurd equal.symm fresh.2.1
      · rw [next, shape, List.take_left]
        exact stopped.others
  | index stopped =>
      refine ⟨(headers settings found).length, Nat.le_refl _, ?_, ?_, ?_⟩
      · rw [List.take_length]
        exact stopped.complete
      · intro less
        exact absurd less (Nat.lt_irrefl _)
      · rw [List.take_length, pathAfter, List.getElem?_eq_none (Nat.le_refl _)]
        exact stopped.others

/-- Where there was no page and now there is one that is not empty, it is complete. -/
theorem Interrupted.complete_of_filled {number : Nat} {file : SourceFile}
    (interrupted : Interrupted codec settings output start found number left)
    (member : file ∈ headers settings found)
    (absent : start.here.tree.content
      (start.here.place (pagePath settings output file.path)) = none)
    (filled : (left.here.tree.content
      (start.here.place (pagePath settings output file.path))).map List.isEmpty = some false) :
    Complete codec settings output start left file := by
  by_cases done : file ∈ (headers settings found).take number
  · exact interrupted.complete file done
  · have unlogged := (orderly.apart found scanned).pagesUnlogged _
      (mem_pagePaths_of_mem_headers member)
    have fresh (other : SourceFile) (before : other ∈ (headers settings found).take number) :
        start.here.place (pagePath settings output other.path) ≠
          start.here.place (pagePath settings output file.path) := by
      intro same
      have equal := eq_of_place orderly scanned (List.mem_filter.mp member).1
        (List.mem_filter.mp (List.mem_of_mem_take before)).1 same
      exact done (equal ▸ before)
    rcases interrupted.others _ unlogged fresh with same | ⟨_, empty⟩
    · rw [same, absent] at filled
      cases filled
    · rw [empty] at filled
      cases filled

end

/-- A generation in a directory finishes, or it fails in its scan and changes nothing, or it is
interrupted. -/
theorem ensures_runIn (orderly : Orderly platform settings output start)
    (named : platform.codecs.find settings.encoding = .ok codec) :
    Ensures (runIn platform settings.excludedPaths settings output) start
      (fun report left => ∃ found, Finds platform settings start found ∧
        Finished codec settings output start found report left)
      fun left =>
        (∃ lost, SourceScan.scan platform.homes start.here settings.excludedPaths
          settings.sourceDirectory = .error lost ∧ left = start) ∨
        ∃ found number, Finds platform settings start found ∧
          Interrupted codec settings output start found number left := by
  unfold runIn
  apply (ensures_sources orderly.plain platform.homes settings.excludedPaths
    fun lost failed => .inl ⟨lost, failed, rfl⟩).bind
  rintro found started ⟨scanned, leaves⟩
  have interrupted (left : Workspace) (broken : BrokenOff codec settings output start found left) :
      ∃ found number, Finds platform settings start found ∧
        Interrupted codec settings output start found number left := by
    obtain ⟨number, interrupted⟩ := broken.exists_interrupted orderly scanned
    exact ⟨found, number, scanned, interrupted⟩
  have initial : Progress codec settings output start [] start := .initial orderly.plain
  have progress := initial.kept (fun _ member => absurd member List.not_mem_nil) leaves
  apply ((ensures_processFiles orderly scanned named progress).imp_bad
    fun left broken => .inr (interrupted left broken)).bind
  rintro _ reached ⟨rfl, progress⟩
  apply ((ensures_index orderly scanned named progress).imp_bad
    fun left broken => .inr (interrupted left broken)).bind
  rintro _ written ⟨rfl, markup, bytes, made, wrote, leaves⟩
  apply ensures_log.bind
  rintro _ _ rfl
  apply ensures_pure
  exact ⟨found, scanned, progress.finished orderly scanned made wrote (leaves.log _)⟩

/-- A generation does what it does in the directory to which its output leads from a home
directory on. Where that cannot be told, it changes nothing. -/
theorem ensures_run (orderly : ∀ directory, platform.homes.expand output = .ok directory →
      Orderly platform settings directory start) :
    Ensures (run platform settings output) start
      (fun report left => ∃ directory codec found, platform.homes.expand output = .ok directory ∧
        platform.codecs.find settings.encoding = .ok codec ∧ Finds platform settings start found ∧
        Finished codec settings directory start found report left)
      fun left =>
        (∃ lost, platform.homes.expand output = .error lost ∧ left = start) ∨
        (∃ lost, SourceScan.scan platform.homes start.here settings.excludedPaths
          settings.sourceDirectory = .error lost ∧ left = start) ∨
        ∃ directory codec found number, platform.homes.expand output = .ok directory ∧
          platform.codecs.find settings.encoding = .ok codec ∧ Finds platform settings start found ∧
          Interrupted codec settings directory start found number left := by
  unfold run runExcluding
  apply (ensures_attempt fun lost unknown => .inl ⟨lost, unknown, rfl⟩).bind
  rintro directory _ ⟨expanded, rfl⟩
  have orderly := orderly directory expanded
  obtain ⟨codec, named⟩ := orderly.loaded.exists_codec
  refine ((ensures_runIn orderly named).imp ?_).imp_bad ?_
  · rintro report left ⟨found, scanned, finished⟩
    exact ⟨directory, codec, found, expanded, named, scanned, finished⟩
  · rintro left (failed | ⟨found, number, scanned, interrupted⟩)
    · exact .inr (.inl failed)
    · exact .inr (.inr ⟨directory, codec, found, number, expanded, named, scanned, interrupted⟩)

/-- A complete page holds the encoded markup exactly where the codec writes that markup as it
encodes it. -/
theorem Complete.encoded_iff {file : SourceFile} {markup : CodeText}
    (complete : Complete codec settings output start left file)
    (made : IsHeaderMarkup codec settings start.here file markup) :
    Encoded codec left.here (start.here.place (pagePath settings output file.path)) markup ↔
      WritesWhole codec markup := by
  obtain ⟨other, made', written⟩ := complete
  obtain rfl := made.unique made'
  exact written.encoded_iff

/-- A generation that succeeds accounts for every scanned file and has changed no file but
the pages: the page of each header holds what is written for the markup of what the header held
at the start, and the index page that of the overview. A page holds its markup encoded exactly
where the codec keeps nothing back. -/
theorem pages_of_run {report : Report}
    (orderly : ∀ directory, platform.homes.expand output = .ok directory →
      Orderly platform settings directory start)
    (gives : Gives (run platform settings output) start report left) :
    ∃ directory codec found, platform.homes.expand output = .ok directory ∧
      platform.codecs.find settings.encoding = .ok codec ∧
      SourceScan.scan platform.homes start.here settings.excludedPaths settings.sourceDirectory =
        .ok found ∧
      Finished codec settings directory start found report left ∧
      (∀ file ∈ headers settings found, ∀ markup,
        IsHeaderMarkup codec settings start.here file markup →
        (Encoded codec left.here (start.here.place (pagePath settings directory file.path)) markup ↔
          WritesWhole codec markup)) ∧
      ∀ markup, IsIndexMarkup codec settings start.here markup →
        (Encoded codec left.here (start.here.place report.index) markup ↔
          WritesWhole codec markup) := by
  obtain ⟨directory, codec, found, expanded, named, scanned, finished⟩ :=
    (ensures_run orderly).gives gives
  refine ⟨directory, codec, found, expanded, named, scanned, finished, ?_, ?_⟩
  · intro file member markup made
    exact (finished.complete file member).encoded_iff made
  · intro markup made
    obtain ⟨other, made', written⟩ := finished.indexPage
    obtain rfl := made.unique made'
    exact written.encoded_iff

/-- The settings of the project in the directory `p` when it has no settings file. -/
def plainSettings : Settings :=
  { root := ⟨.root, [codes "p"]⟩
    project := codes "p"
    sourceDirectory := ⟨.root, [codes "p", codes "include", codes "p"]⟩
    overview := ⟨.root, [codes "p", codes "README.md"]⟩
    headerExtension := codes ".hh"
    implementationMarker := codes "_impl"
    pageExtension := codes "html"
    encoding := "utf-8".toList
    language := codes "en"
    restoring := false
    excludedPaths := [] }

/-- The project in the directory `p` with its sources, beside a directory of older pages. -/
def plainProject (sources pages : List (CodeText × Entry)) : Workspace :=
  { here :=
      { tree := ⟨[(codes "p", .directory [(codes "README.md", .file [0x72]),
          (codes "include", .directory [(codes "p", .directory sources)])]),
          (codes "site", .directory pages)]⟩
        current := [] }
    threshold := .critical }

/-- They are what the empty mapping gives. -/
theorem loaded_plainSettings : Loaded Encoding.codecs plainSettings := by
  have taken : Settings.ofMapping Encoding.codecs plainSettings.root [] = .ok plainSettings := by
    decide +kernel
  exact ⟨_, _, plainSettings, none, taken, rfl⟩

/-- A header, one in a directory of its own, an implementation file and another file. -/
def mixedSources : List (CodeText × Entry) :=
  [(codes "b.hh", .file [0x3B]), (codes "a_impl.hh", .file []), (codes "notes", .file [0x6E]),
    (codes "d", .directory [(codes "b.hh", .file [])])]

/-- The report of a generation from these sources. -/
def mixedReport : Report :=
  { output := ⟨.relative, [codes "site"]⟩
    pages := [⟨.relative, [codes "site", codes "b.hh.html"]⟩,
      ⟨.relative, [codes "site", codes "d", codes "b.hh.html"]⟩]
    skipped := [⟨codes "a_impl.hh", .implementationFile (codes "_impl")⟩,
      ⟨codes "notes", .wrongExtension (codes ".hh")⟩]
    index := ⟨.relative, [codes "site", codes "index.html"]⟩ }

/-- A generation over an older page, with one file of every kind. -/
theorem pages_of_run_mixedSources :
    let platform := Platform.standard {}
    let codec := Encoding.utf8.codec plainSettings.encoding
    let start := plainProject mixedSources [(codes "b.hh.html", .file [0x6F])]
    let site : Path := ⟨.relative, [codes "site"]⟩
    let root : Path := plainSettings.sourceDirectory
    let found := [SourceScan.sourceFile root [codes "a_impl.hh"],
      SourceScan.sourceFile root [codes "b.hh"], SourceScan.sourceFile root [codes "notes"],
      SourceScan.sourceFile root [codes "d", codes "b.hh"]]
    Orderly platform plainSettings site start ∧
      ∃ left, Gives (run platform plainSettings site) start mixedReport left ∧
        Finished codec plainSettings site start found mixedReport left := by
  intro platform codec start site root found
  have scanned : Finds platform plainSettings start found := by decide +kernel
  have orderly : Orderly platform plainSettings site start :=
    .of_unlogged loaded_plainSettings (by decide) (.of_all (by decide +kernel) ⟨_, rfl⟩)
      (FileTree.wellNamed_of_all (by decide +kernel)) rfl scanned (by decide +kernel)
      (by decide +kernel)
  have done : (outcome (run platform plainSettings site) start).1 = .ok mixedReport := by decide +kernel
  have gives : Gives (run platform plainSettings site) start mixedReport
      (outcome (run platform plainSettings site) start).2 := Prod.ext done rfl
  have expanded : platform.homes.expand site = .ok site := rfl
  have named : platform.codecs.find plainSettings.encoding = .ok codec := by rfl
  obtain ⟨_, _, other, expanded', named', listed, finished, _⟩ :=
    pages_of_run (orderly.of_expand expanded) gives
  obtain rfl := Except.ok.inj (expanded.symm.trans expanded')
  obtain rfl := Except.ok.inj (named.symm.trans named')
  obtain rfl := Except.ok.inj (scanned.symm.trans listed)
  exact ⟨orderly, _, gives, finished⟩

/-- Settings whose encoding is the one for names of hosts. -/
def hostSettings : Settings :=
  { plainSettings with
    root := ⟨.root, [codes "demo"]⟩
    project := codes "d.x"
    sourceDirectory := ⟨.root, [codes "demo", codes "include", codes "d.x"]⟩
    overview := ⟨.root, [codes "demo", codes "README.md"]⟩
    encoding := "idna".toList
    language := codes "e.n" }

/-- The project in the directory `demo`, with its sources and what else it has. -/
def hostProject (sources others : List (CodeText × Entry)) : Workspace :=
  { here :=
      { tree := ⟨[(codes "demo", .directory
          ((codes "include", .directory [(codes "d.x", .directory sources)]) :: others))]⟩
        current := [] }
    threshold := .critical }

/-- The bytes of the text `a.b`. -/
def hostBytes : Bytes := [0x61, 0x2E, 0x62]

/-- They are loaded where the encoding, the language and the project are given. -/
theorem loaded_hostSettings : Loaded Encoding.codecs hostSettings := by
  have taken : Settings.ofMapping Encoding.codecs hostSettings.root
      [(.text (codes "encoding"), .text (codes "idna")),
        (.text (codes "language"), .text (codes "e.n")),
        (.text (codes "project"), .text (codes "d.x"))] = .ok hostSettings := by
    decide +kernel
  exact ⟨_, _, hostSettings, none, taken, rfl⟩

/-- The index page of the project is cut off after its third full stop, where the encoded
markup goes on. -/
theorem not_encoded_hostIndex :
    let platform := Platform.standard {}
    let codec := Encoding.idna.codec hostSettings.encoding
    let start := hostProject [] [(codes "README.md", .file hostBytes)]
    let site : Path := ⟨.relative, [codes "site"]⟩
    let markup := (page hostSettings hostSettings.project).ofText "a.b".toList
    let whole := (codec.encode markup).toOption.getD []
    Orderly platform hostSettings site start ∧ IsIndexMarkup codec hostSettings start.here markup ∧
      codec.encode markup = .ok whole ∧ whole.length = 157 ∧
      ∃ report left, Gives (run platform hostSettings site) start report left ∧
        left.here.tree.content (start.here.place report.index) = some (whole.take 100) ∧
        ¬ Encoded codec left.here (start.here.place report.index) markup := by
  intro platform codec start site markup whole
  have scanned : Finds platform hostSettings start [] := by decide +kernel
  have orderly : Orderly platform hostSettings site start :=
    .of_unlogged loaded_hostSettings (by decide) (.of_all (by decide +kernel) ⟨_, rfl⟩)
      (FileTree.wellNamed_of_all (by decide +kernel)) rfl scanned (by decide +kernel)
      (by decide +kernel)
  have overview : start.here.tree.content (start.here.place hostSettings.overview) =
      some hostBytes := by decide +kernel
  have read : codec.readText hostBytes = .ok "a.b".toList := by decide +kernel
  have made : IsIndexMarkup codec hostSettings start.here markup := ⟨_, ⟨_, overview, read⟩, rfl⟩
  have encoded : codec.encode markup = .ok whole := by decide +kernel
  have length : ((codec.encode markup).toOption.getD []).length = 157 := by decide +kernel
  have wrote : codec.write markup = .ok (whole.take 100) := by decide +kernel
  have done : (outcome (run platform hostSettings site) start).1 = .ok
      { output := site, pages := [], skipped := []
        index := ⟨.relative, [codes "site", codes "index.html"]⟩ } := by decide +kernel
  have gives : Gives (run platform hostSettings site) start _
      (outcome (run platform hostSettings site) start).2 := Prod.ext done rfl
  have named : platform.codecs.find hostSettings.encoding = .ok codec := by rfl
  obtain ⟨_, _, _, _, named', _, finished⟩ := (ensures_run (orderly.of_expand rfl)).gives gives
  obtain rfl := Except.ok.inj (named.symm.trans named')
  obtain ⟨other, made', written⟩ := finished.indexPage
  obtain rfl := made.unique made'
  refine ⟨orderly, made, encoded, length, _, _, gives, written.content_eq wrote, ?_⟩
  rw [written.encoded_iff]
  exact not_writesWhole wrote encoded length (by decide)

/-- A generation that fails has changed nothing, since its output cannot be told or its scan
failed, or it leaves the pages of the first headers and at most one emptied page. A page that it
leaves holds its markup encoded exactly where the codec keeps nothing back. -/
theorem pages_of_failed_run {failure : Failure}
    (orderly : ∀ directory, platform.homes.expand output = .ok directory →
      Orderly platform settings directory start)
    (breaks : Breaks (run platform settings output) start failure left) :
    (∃ lost, platform.homes.expand output = .error lost ∧ left = start) ∨
    (∃ lost, SourceScan.scan platform.homes start.here settings.excludedPaths
      settings.sourceDirectory = .error lost ∧ left = start) ∨
    ∃ directory codec found number, platform.homes.expand output = .ok directory ∧
      platform.codecs.find settings.encoding = .ok codec ∧
      SourceScan.scan platform.homes start.here settings.excludedPaths settings.sourceDirectory =
        .ok found ∧
      Interrupted codec settings directory start found number left ∧
      ∀ file ∈ (headers settings found).take number, ∀ markup,
        IsHeaderMarkup codec settings start.here file markup →
        (Encoded codec left.here (start.here.place (pagePath settings directory file.path)) markup ↔
          WritesWhole codec markup) := by
  refine ((ensures_run orderly).breaks breaks).imp_right (.imp_right ?_)
  rintro ⟨directory, codec, found, number, expanded, named, scanned, interrupted⟩
  refine ⟨directory, codec, found, number, expanded, named, scanned, interrupted, ?_⟩
  intro file member markup made
  exact (interrupted.complete file member).encoded_iff made

/-- Two headers and one whose name holds a byte that is no character. Its page has a title
that cannot be encoded. -/
def oddSources : List (CodeText × Entry) :=
  [(codes "a.hh", .file [0x3B]), (FileName.ofByte 0xFF :: codes ".hh", .file []),
    (codes "c.hh", .file [])]

/-- The page of the odd header is left empty, where an older one was. -/
theorem pages_of_failed_run_oddSources :
    let platform := Platform.standard {}
    let codec := Encoding.utf8.codec plainSettings.encoding
    let start := plainProject oddSources [(FileName.ofByte 0xFF :: codes ".hh.html", .file [0x6F])]
    let site : Path := ⟨.relative, [codes "site"]⟩
    let root : Path := plainSettings.sourceDirectory
    let found := [SourceScan.sourceFile root [codes "a.hh"], SourceScan.sourceFile root [codes "c.hh"],
      SourceScan.sourceFile root [FileName.ofByte 0xFF :: codes ".hh"]]
    Orderly platform plainSettings site start ∧
      ∃ failure left number, Breaks (run platform plainSettings site) start failure left ∧
        left.here.tree.content [codes "site", FileName.ofByte 0xFF :: codes ".hh.html"] = some [] ∧
        Interrupted codec plainSettings site start found number left := by
  intro platform codec start site root found
  have scanned : Finds platform plainSettings start found := by decide +kernel
  have orderly : Orderly platform plainSettings site start :=
    .of_unlogged loaded_plainSettings (by decide) (.of_all (by decide +kernel) ⟨_, rfl⟩)
      (FileTree.wellNamed_of_all (by decide +kernel)) rfl scanned (by decide +kernel)
      (by decide +kernel)
  have unwritten : (outcome (run platform plainSettings site) start).1 =
      .error (.writing (.codes ⟨Encoding.Utf8.codec, [FileName.ofByte 0xFF], 71,
        Encoding.surrogatesRefused⟩)) := by
    decide +kernel
  have emptied : (outcome (run platform plainSettings site) start).2.here.tree.content
      [codes "site", FileName.ofByte 0xFF :: codes ".hh.html"] = some [] := by decide +kernel
  have breaks : Breaks (run platform plainSettings site) start _
      (outcome (run platform plainSettings site) start).2 := Prod.ext unwritten rfl
  have expanded : platform.homes.expand site = .ok site := rfl
  have named : platform.codecs.find plainSettings.encoding = .ok codec := by rfl
  rcases pages_of_failed_run (orderly.of_expand expanded) breaks with
    ⟨lost, unknown, _⟩ | ⟨lost, failed, _⟩ |
      ⟨_, _, other, number, expanded', named', listed, interrupted, _⟩
  · cases expanded.symm.trans unknown
  · cases scanned.symm.trans failed
  · obtain rfl := Except.ok.inj (expanded.symm.trans expanded')
    obtain rfl := Except.ok.inj (named.symm.trans named')
    obtain rfl := Except.ok.inj (scanned.symm.trans listed)
    exact ⟨orderly, _, _, number, breaks, emptied, interrupted⟩

/-- A generation for which there is no overview leaves a page that is neither encoded as a
whole nor empty. -/
theorem not_encoded_hostHeader :
    let platform := Platform.standard {}
    let codec := Encoding.idna.codec hostSettings.encoding
    let start := hostProject [(codes "a.hh", .file hostBytes)] []
    let site : Path := ⟨.relative, [codes "site"]⟩
    let file := SourceScan.sourceFile hostSettings.sourceDirectory [codes "a.hh"]
    let location := start.here.place (pagePath hostSettings site file.path)
    let markup := (do
      let document ← Document.build file.path "a.b".toList
      (page hostSettings (codes "d.x: a.hh")).ofDocument document false).toOption.getD []
    let whole := (codec.encode markup).toOption.getD []
    Orderly platform hostSettings site start ∧
      IsHeaderMarkup codec hostSettings start.here file markup ∧
      codec.encode markup = .ok whole ∧ whole.length = 163 ∧
      start.here.tree.content location = none ∧
      ∃ failure left, Breaks (run platform hostSettings site) start failure left ∧
        left.here.tree.content location = some (whole.take 106) ∧
        ¬ Encoded codec left.here location markup := by
  intro platform codec start site file location markup whole
  have scanned : Finds platform hostSettings start [file] := by decide +kernel
  have orderly : Orderly platform hostSettings site start :=
    .of_unlogged loaded_hostSettings (by decide) (.of_all (by decide +kernel) ⟨_, rfl⟩)
      (FileTree.wellNamed_of_all (by decide +kernel)) rfl scanned (by decide +kernel)
      (by decide +kernel)
  have held : start.here.tree.content (start.here.place file.absolute) = some hostBytes := by
    decide +kernel
  have read : codec.readText hostBytes = .ok "a.b".toList := by decide +kernel
  have rendered : (do
      let document ← Document.build file.path "a.b".toList
      (page hostSettings (codes "d.x: a.hh")).ofDocument document false) = .ok markup := by
    decide +kernel
  obtain ⟨document, built, shown⟩ := bind_eq_ok_iff.mp rendered
  have made : IsHeaderMarkup codec hostSettings start.here file markup :=
    ⟨_, document, ⟨_, held, read⟩, built, shown⟩
  have encoded : codec.encode markup = .ok whole := by decide +kernel
  have length : ((codec.encode markup).toOption.getD []).length = 163 := by decide +kernel
  have wrote : codec.write markup = .ok (whole.take 106) := by decide +kernel
  have absent : start.here.tree.content location = none := by decide +kernel
  have missing : (outcome (run platform hostSettings site) start).1 =
      .error (.overviewMissing hostSettings.overview) := by decide +kernel
  have filled : ((outcome (run platform hostSettings site) start).2.here.tree.content
      location).map List.isEmpty = some false := by decide +kernel
  have breaks : Breaks (run platform hostSettings site) start _
      (outcome (run platform hostSettings site) start).2 := Prod.ext missing rfl
  have expanded : platform.homes.expand site = .ok site := rfl
  have named : platform.codecs.find hostSettings.encoding = .ok codec := by rfl
  rcases (ensures_run (orderly.of_expand expanded)).breaks breaks with
    ⟨lost, unknown, _⟩ | ⟨lost, failed, _⟩ |
      ⟨_, _, other, number, expanded', named', listed, interrupted⟩
  · cases expanded.symm.trans unknown
  · cases scanned.symm.trans failed
  obtain rfl := Except.ok.inj (expanded.symm.trans expanded')
  obtain rfl := Except.ok.inj (named.symm.trans named')
  obtain rfl := Except.ok.inj (scanned.symm.trans listed)
  -- A page that was not there and is not empty counts as done, though it is cut off.
  have header : file ∈ headers hostSettings [file] := by decide +kernel
  obtain ⟨_, made', written⟩ :=
    interrupted.complete_of_filled orderly scanned header absent filled
  obtain rfl := made.unique made'
  refine ⟨orderly, made, encoded, length, absent, _, _, breaks, written.content_eq wrote, ?_⟩
  rw [written.encoded_iff]
  exact not_writesWhole wrote encoded length (by decide)

end HeaderBook.Generation
