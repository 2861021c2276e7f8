import HeaderBook.Platform.Standard
import HeaderBook.Proofs.Decimal
import HeaderBook.Proofs.ResolvedPath
import HeaderBook.Proofs.SettingsFailure

/-!
# Settings that are spelled out

Loaded settings can be written down as a mapping again, with a value for every key, so that
nothing is left to a default. Taken from that mapping, each setting should be what it was: a
text that was filled in, trimmed or made of a number is now given as it is, a path is given from
the root on, and a truth value is given as one. `Takes` says what becomes of each value.

The extension of pages is the exception. Its default is filled in before the full stops in front
are dropped, so a text of full stops alone leaves an empty extension, and an empty extension is
taken for a missing one.

A mapping is any list of pairs of values here, wherever it comes from, and every platform is
considered: what is said of the encoding is only that the check that it passed is passed again.
-/

namespace HeaderBook

/-! ### Characters of numbers and names -/

namespace Text

/-- The digits of a shortest decimal are digits. -/
theorem isDigit_of_mem_digits {bits : UInt64} {form : ShortestDecimal}
    (finite : DecimalForm.ofBits bits = .finite form) : ∀ c ∈ form.digits, isDigit c = true := by
  unfold DecimalForm.ofBits at finite
  dsimp only at finite
  split at finite
  · split at finite <;> cases finite
  · split at finite
    · obtain rfl := DecimalForm.finite.inj finite
      exact List.forall_mem_singleton.mpr (by decide)
    · obtain rfl := DecimalForm.finite.inj finite
      intro c member
      have inside := (List.dropWhile_sublist _).subset (List.mem_reverse.mp member)
      exact isDigit_of_mem_decimal c (List.mem_reverse.mp inside)

/-- A digit is no full stop. -/
theorem ne_stop_of_isDigit {c : Char} (digit : isDigit c = true) : c ≠ '.' := by
  rintro rfl
  exact absurd digit (by decide)

/-- A number that is laid out does not consist of full stops. -/
theorem exists_ne_stop_of_render (layout : DecimalLayout) {form : ShortestDecimal}
    (digits : ∀ c ∈ form.digits, isDigit c = true) : ∃ c ∈ layout.render form, c ≠ '.' := by
  unfold DecimalLayout.render
  dsimp only
  split
  · split
    · exact ⟨'0', by simp, by decide⟩
    · split
      · exact ⟨'0', by simp, by decide⟩
      next positive long =>
        -- There are digits before the point.
        have some : form.digits.take form.place.toNat ≠ [] := by
          intro none
          rcases List.take_eq_nil_iff.mp none with zero | empty
          · omega
          · rw [empty, List.length_nil] at long
            omega
        obtain ⟨digit, member⟩ := List.exists_mem_of_ne_nil _ some
        refine ⟨digit, ?_, ne_stop_of_isDigit (digits digit (List.take_subset _ _ member))⟩
        exact List.mem_append_left _ (List.mem_append_left _ (List.mem_append_right _ member))
  · exact ⟨'e', by simp, by decide⟩

end Text

namespace Encoding

/-- Nothing is refused exactly when everything is covered. -/
theorem firstRefused?_eq_none_iff {covered : CodePoint → Bool} {text : CodeText} :
    firstRefused? covered text = none ↔ ∀ code ∈ text, covered code = true := by
  rw [firstRefused?, ← List.dropWhile_eq_nil_iff]
  cases text.dropWhile covered with
  | nil => exact iff_of_true rfl rfl
  | cons code rest => exact iff_of_false (Option.some_ne_none _) (List.cons_ne_nil code rest)

/-- A text has the characters of which it consists, and none if it holds a surrogate. -/
theorem Utf8.characters_eq_ok_iff {text : CodeText} {name : Text} :
    characters text = .ok name ↔ text = CodeText.ofText name := by
  constructor
  · intro taken
    unfold characters at taken
    split at taken
    next covered =>
      obtain rfl := Except.ok.inj taken
      have all := firstRefused?_eq_none_iff.mp covered
      clear covered taken
      induction text with
      | nil => rfl
      | cons code text inductionHypothesis =>
          rw [List.forall_mem_cons] at all
          cases code with
          | char c => exact congrArg (CodePoint.char c :: ·) (inductionHypothesis all.2)
          | surrogate offset => cases all.1
    · cases taken
  · rintro rfl
    have covered : firstRefused? (!·.isSurrogate) (CodeText.ofText name) = none := by
      rw [firstRefused?_eq_none_iff]
      intro code member
      obtain ⟨c, _, rfl⟩ := List.mem_map.mp member
      rfl
    rw [characters, covered, CodeText.ofText, List.filterMap_map]
    exact congrArg Except.ok (List.filterMap_some)

end Encoding

namespace Settings

variable {codecs : Codecs} {root : Path} {mapping : Mapping} {settings : Settings}

/-! ### Values -/

/-- A text that is taken was given, or it is the default for a missing or an empty one. -/
theorem textOr_eq_ok_iff {default text : CodeText} {value : Yaml.Value} :
    textOr default value = .ok text ↔
      textOf? value = .ok (some text) ∧ text ≠ [] ∨
        (textOf? value = .ok none ∨ textOf? value = .ok (some [])) ∧ text = default := by
  rw [textOr, bind_eq_ok_iff]
  constructor
  · rintro ⟨given, found, taken⟩
    split at taken
    · exact .inr ⟨.inl found, (Except.ok.inj taken).symm⟩
    · exact .inr ⟨.inr found, (Except.ok.inj taken).symm⟩
    next other nonempty =>
      obtain rfl := Except.ok.inj taken
      exact .inl ⟨found, nonempty⟩
  · rintro (⟨found, nonempty⟩ | ⟨found | found, rfl⟩)
    · refine ⟨_, found, ?_⟩
      cases text with
      | nil => exact absurd rfl nonempty
      | cons code text => rfl
    · exact ⟨_, found, rfl⟩
    · exact ⟨_, found, rfl⟩

/-- A text that is not empty takes the place of the default. -/
theorem textOr_text {text : CodeText} (nonempty : text ≠ []) (default : CodeText) :
    textOr default (.text text) = .ok text :=
  textOr_eq_ok_iff.mpr (.inl ⟨rfl, nonempty⟩)

/-- A text that was taken is taken again, even if it is the default and empty. -/
theorem textOr_of_textOr {default text : CodeText} {value : Yaml.Value}
    (taken : textOr default value = .ok text) : textOr default (.text text) = .ok text := by
  by_cases empty : text = []
  · subst empty
    rcases textOr_eq_ok_iff.mp taken with ⟨_, nonempty⟩ | ⟨_, same⟩
    · exact absurd rfl nonempty
    · exact textOr_eq_ok_iff.mpr (.inr ⟨.inr rfl, same⟩)
  · exact textOr_text empty default

/-- A list of texts is read as it is. -/
theorem textsOf_texts (texts : List CodeText) : textsOf (.sequence (texts.map .text)) = .ok texts := by
  have written : (texts.map Yaml.Value.text).mapM entryText? = .ok (texts.map some) := by
    rw [List.mapM_map]
    exact mapM_eq_ok fun text _ => rfl
  rw [textsOf, written]
  refine congrArg Except.ok ?_
  rw [List.filterMap_map]
  exact List.filterMap_some

/-- A dotted extension begins with a full stop. -/
theorem head?_dotted (extension : CodeText) : (dotted extension).head? = some (.char '.') := by
  unfold dotted
  split
  next starts => exact starts
  · rfl

/-- The text of a fraction is not made of full stops only. -/
theorem exists_ne_stop_of_fraction (value : Float) : ∃ c ∈ fractionText value, c ≠ '.' := by
  unfold fractionText
  split
  next form finite =>
    exact Text.exists_ne_stop_of_render fractionLayout (Text.isDigit_of_mem_digits finite)
  next negative _ =>
    cases negative with
    | false => exact ⟨'i', by decide, by decide⟩
    | true => exact ⟨'i', by decide, by decide⟩
  · exact ⟨'n', by decide, by decide⟩

/-- The text of an integer is not made of full stops only. -/
theorem exists_ne_stop_of_signedDecimal (value : Int) : ∃ c ∈ Text.signedDecimal value, c ≠ '.' := by
  cases value with
  | ofNat number =>
      obtain ⟨digit, member⟩ := List.exists_mem_of_ne_nil _ (Text.decimal_ne_nil number)
      exact ⟨digit, member, Text.ne_stop_of_isDigit (Text.isDigit_of_mem_decimal digit member)⟩
  | negSucc number => exact ⟨'-', List.mem_cons_self, by decide⟩

/-- No full stop is left in front. -/
theorem head?_dropWhile_ne (text : CodeText) :
    (text.dropWhile (· = CodePoint.char '.')).head? ≠ some (.char '.') := by
  intro starts
  have stopped := List.head?_dropWhile_not (· = CodePoint.char '.') text
  rw [starts] at stopped
  exact absurd stopped (by decide)

/-- A text of one or more full stops and nothing else. -/
def OnlyStops : Yaml.Value → Prop
  | .text text => text ≠ [] ∧ ∀ code ∈ text, code = .char '.'
  | _ => False

/-- A text with another character is not made of full stops only. -/
theorem not_only_stops {written : Text} (other : ∃ c ∈ written, c ≠ '.') :
    ¬ ∀ code ∈ CodeText.ofText written, code = CodePoint.char '.' := by
  obtain ⟨c, member, notStop⟩ := other
  intro all
  exact notStop (CodePoint.char.inj (all (.char c) (List.mem_map_of_mem member)))

/-- Of all values, texts of full stops alone are written with full stops alone. -/
theorem onlyStops_iff {value : Yaml.Value} {text : CodeText}
    (written : textOf? value = .ok (some text)) :
    OnlyStops value ↔ text ≠ [] ∧ ∀ code ∈ text, code = .char '.' := by
  cases value with
  | text given =>
      obtain rfl := Option.some.inj (Except.ok.inj written)
      exact Iff.rfl
  | int number =>
      obtain ⟨digits, shown, equal⟩ := bind_eq_ok_iff.mp written
      obtain rfl := Option.some.inj (Except.ok.inj equal)
      unfold integerText at shown
      dsimp only at shown
      split at shown
      · cases shown
      · obtain rfl := Except.ok.inj shown
        exact iff_of_false id fun stops =>
          not_only_stops (exists_ne_stop_of_signedDecimal number) stops.2
  | float number =>
      obtain rfl := Option.some.inj (Except.ok.inj written)
      exact iff_of_false id fun stops => not_only_stops (exists_ne_stop_of_fraction number) stops.2
  | _ => cases written

/-- Nothing is left of an extension when the full stops in front are dropped, exactly if it
was given as a text of full stops. -/
theorem dropWhile_eq_nil_iff_onlyStops {value : Yaml.Value} {page : CodeText}
    (taken : textOr (codes "html") value = .ok page) :
    page.dropWhile (· = CodePoint.char '.') = [] ↔ OnlyStops value := by
  simp only [List.dropWhile_eq_nil_iff, decide_eq_true_iff]
  rcases textOr_eq_ok_iff.mp taken with ⟨written, nonempty⟩ | ⟨missing, rfl⟩
  · rw [onlyStops_iff written]
    exact (and_iff_right nonempty).symm
  · refine iff_of_false (not_only_stops ⟨'h', by decide, by decide⟩) ?_
    rcases missing with none | empty
    · intro stops
      cases value with
      | text given => cases none
      | _ => exact stops
    · rw [onlyStops_iff empty]
      exact fun stops => stops.1 rfl

/-! ### Mappings -/

/-- What each setting is when it is taken from a mapping. -/
structure Takes (codecs : Codecs) (root : Path) (mapping : Mapping) (settings : Settings) : Prop where
  project : textOr root.name (mapping.get "project") = .ok settings.project
  sourceDirectory : ∃ source,
    textOr (codes "include/" ++ settings.project) (mapping.get "source_dir") = .ok source ∧
      settings.sourceDirectory = root.child source
  overview : ∃ overview, textOr (codes "README.md") (mapping.get "overview") = .ok overview ∧
    settings.overview = root.child overview
  headerExtension : ∃ extension,
    textOr ({} : HeaderRule).extension (mapping.get "header_extension") = .ok extension ∧
      settings.headerExtension = dotted extension
  implementationMarker : ∃ marker?, textOf? (mapping.get "implementation_marker") = .ok marker? ∧
    settings.implementationMarker = marker?.getD ({} : HeaderRule).implementationMarker
  pageExtension : ∃ page, textOr (codes "html") (mapping.get "page_extension") = .ok page ∧
    settings.pageExtension = page.dropWhile (· = CodePoint.char '.')
  encoding : textOr (codes "utf-8") (mapping.get "encoding") = .ok (CodeText.ofText settings.encoding)
  checked : checkEncoding codecs settings.encoding = .ok ()
  language : textOr (codes "en") (mapping.get "language") = .ok settings.language
  restoring : settings.restoring = (truthOf? (mapping.get "resolve_markers")).getD false
  excludedPaths : textsOf (mapping.get "exclude_paths") = .ok settings.excludedPaths
  root : settings.root = root

/-- A mapping gives settings exactly when every setting can be taken from it. -/
theorem ofMapping_eq_ok_iff :
    ofMapping codecs root mapping = .ok settings ↔ Takes codecs root mapping settings := by
  simp only [ofMapping, bind_eq_ok_iff, mapError_eq_ok_iff, Encoding.Utf8.characters_eq_ok_iff]
  constructor
  · rintro ⟨project, projectTaken, source, sourceTaken, overview, overviewTaken, extension,
      extensionTaken, marker?, markerTaken, page, pageTaken, _, encodingTaken, name, rfl, _,
      checked, language, languageTaken, excluded, excludedTaken, made⟩
    obtain rfl := Except.ok.inj made
    exact ⟨projectTaken, ⟨source, sourceTaken, rfl⟩, ⟨overview, overviewTaken, rfl⟩,
      ⟨extension, extensionTaken, rfl⟩, ⟨marker?, markerTaken, rfl⟩, ⟨page, pageTaken, rfl⟩,
      encodingTaken, checked, languageTaken, rfl, excludedTaken, rfl⟩
  · intro takes
    obtain ⟨source, sourceTaken, sourceDirectory⟩ := takes.sourceDirectory
    obtain ⟨overview, overviewTaken, overviewPath⟩ := takes.overview
    obtain ⟨extension, extensionTaken, headerExtension⟩ := takes.headerExtension
    obtain ⟨marker?, markerTaken, implementationMarker⟩ := takes.implementationMarker
    obtain ⟨page, pageTaken, pageExtension⟩ := takes.pageExtension
    refine ⟨_, takes.project, source, sourceTaken, overview, overviewTaken, extension,
      extensionTaken, marker?, markerTaken, page, pageTaken, _, takes.encoding, _, rfl, (),
      takes.checked, _, takes.language, _, takes.excludedPaths, ?_⟩
    refine congrArg Except.ok ?_
    rw [← sourceDirectory, ← overviewPath, ← headerExtension, ← implementationMarker,
      ← pageExtension, ← takes.restoring, ← takes.root]

/-- The mapping that spells out settings. -/
def spelledOut (settings : Settings) : Mapping :=
  [(.text (codes "project"), .text settings.project),
    (.text (codes "source_dir"), .text settings.sourceDirectory.text),
    (.text (codes "overview"), .text settings.overview.text),
    (.text (codes "header_extension"), .text settings.headerExtension),
    (.text (codes "implementation_marker"), .text settings.implementationMarker),
    (.text (codes "page_extension"), .text settings.pageExtension),
    (.text (codes "encoding"), .text (CodeText.ofText settings.encoding)),
    (.text (codes "language"), .text settings.language),
    (.text (codes "resolve_markers"), .bool settings.restoring),
    (.text (codes "exclude_paths"), .sequence (settings.excludedPaths.map .text))]

variable (takes : Takes codecs root mapping settings)

include takes

/-- The header extension begins with a full stop. -/
theorem Takes.head?_headerExtension : settings.headerExtension.head? = some (.char '.') := by
  obtain ⟨extension, _, equal⟩ := takes.headerExtension
  rw [equal]
  exact head?_dotted extension

/-- The page extension does not begin with a full stop. -/
theorem Takes.head?_pageExtension_ne : settings.pageExtension.head? ≠ some (.char '.') := by
  obtain ⟨page, _, equal⟩ := takes.pageExtension
  rw [equal]
  exact head?_dropWhile_ne page

/-- The page extension is empty exactly when only full stops were given. -/
theorem Takes.pageExtension_eq_nil_iff :
    settings.pageExtension = [] ↔ OnlyStops (mapping.get "page_extension") := by
  obtain ⟨page, taken, equal⟩ := takes.pageExtension
  rw [equal]
  exact dropWhile_eq_nil_iff_onlyStops taken

/-- What is taken from a mapping that spells out settings is what was spelled out, but for an
empty extension of pages, which is filled in. -/
theorem Takes.spelledOut (tidy : root.Tidy) (anchored : root.anchor ≠ .relative) :
    Takes codecs root settings.spelledOut { settings with
      pageExtension := if settings.pageExtension = [] then codes "html" else settings.pageExtension } := by
  obtain ⟨source, _, sourceDirectory⟩ := takes.sourceDirectory
  obtain ⟨overview, _, overviewPath⟩ := takes.overview
  have dot := takes.head?_headerExtension
  refine {
    project := textOr_of_textOr takes.project
    sourceDirectory := ⟨_, textOr_text (Path.text_ne_nil _) _, ?_⟩
    overview := ⟨_, textOr_text (Path.text_ne_nil _) _, ?_⟩
    headerExtension := ⟨_, textOr_text ?_ _, (if_pos dot).symm⟩
    implementationMarker := ⟨_, rfl, rfl⟩
    pageExtension := ?_
    encoding := textOr_of_textOr takes.encoding
    checked := takes.checked
    language := textOr_of_textOr takes.language
    restoring := rfl
    excludedPaths := textsOf_texts _
    root := takes.root }
  · rw [sourceDirectory]
    exact (Path.child_text (tidy.child source) (Path.anchor_child_ne anchored source) root).symm
  · rw [overviewPath]
    exact (Path.child_text (tidy.child overview) (Path.anchor_child_ne anchored overview) root).symm
  · intro empty
    rw [empty] at dot
    cases dot
  · by_cases empty : settings.pageExtension = []
    · have missing : textOr (codes "html") (.text settings.pageExtension) = .ok (codes "html") :=
        textOr_eq_ok_iff.mpr (.inr ⟨.inr (congrArg (Except.ok ∘ some) empty), rfl⟩)
      have kept : (codes "html").dropWhile (· = CodePoint.char '.') = codes "html" := by decide
      exact ⟨codes "html", missing, (if_pos empty).trans kept.symm⟩
    · refine ⟨settings.pageExtension, textOr_text empty _, ?_⟩
      obtain ⟨code, rest, equal⟩ := List.exists_cons_of_ne_nil empty
      have notDot := takes.head?_pageExtension_ne
      rw [equal, List.head?_cons] at notDot
      rw [if_neg empty, equal, List.dropWhile_cons_of_neg (by simpa using notDot)]

omit takes

/-! ### Loading -/

variable {platform : Platform}

/-- The settings of the project at `root` whose settings file holds a mapping. -/
def loadMapping (platform : Platform) (here : Directory) (root : Path) (mapping : Mapping) :
    Except Failure Settings := do
  let root ← (platform.homes.resolve here root).mapError .files
  ofMapping platform.codecs root mapping

/-- Loading reads a mapping and gives what the mapping gives. -/
theorem load_eq_loadMapping {here : Directory} {root : Path} {file : Option Path}
    (read : ∀ resolved, platform.homes.resolve here root = .ok resolved →
      ∃ located, locate platform resolved file = .ok located ∧
        readMapping platform.yaml here located = .ok mapping) :
    load platform here root file = loadMapping platform here root mapping := by
  unfold load loadMapping
  cases found : platform.homes.resolve here root with
  | error failure => rfl
  | ok resolved =>
      obtain ⟨located, there, given⟩ := read resolved found
      rw [locate] at there
      simp only [Except.mapError, bind, Except.bind, there, given]

/-- Loading the mapping that spells out loaded settings gives the same settings again, exactly
if the extension of pages was not given as a text of full stops. If it was, the extension is
empty, and comes back as the default. -/
theorem loadMapping_spelledOut {here : Directory} (current : Path.Tidy ⟨.root, here.current⟩)
    {given : CodeText} (loaded : loadMapping platform here (.ofText given) mapping = .ok settings) :
    (loadMapping platform here (.ofText given) settings.spelledOut = .ok settings ↔
      ¬ OnlyStops (mapping.get "page_extension")) ∧
    (settings.pageExtension = [] ↔ OnlyStops (mapping.get "page_extension")) ∧
    (settings.pageExtension = [] → loadMapping platform here (.ofText given) settings.spelledOut =
      .ok { settings with pageExtension := codes "html" }) ∧
    settings.headerExtension.head? = some (.char '.') ∧
    settings.pageExtension.head? ≠ some (.char '.') := by
  obtain ⟨resolved, found, taken⟩ := bind_eq_ok_iff.mp loaded
  have takes := ofMapping_eq_ok_iff.mp taken
  obtain ⟨tidy, anchored⟩ :=
    Homes.tidy_resolve current (Path.tidy_ofText given) (mapError_eq_ok_iff.mp found)
  have again : loadMapping platform here (.ofText given) settings.spelledOut = .ok { settings with
      pageExtension := if settings.pageExtension = [] then codes "html" else settings.pageExtension } :=
    bind_eq_ok_iff.mpr ⟨resolved, found, ofMapping_eq_ok_iff.mpr (takes.spelledOut tidy anchored)⟩
  have empty := takes.pageExtension_eq_nil_iff
  refine ⟨?_, empty, fun none => ?_, takes.head?_headerExtension, takes.head?_pageExtension_ne⟩
  · rw [again, ← empty]
    constructor
    · intro same none
      have extension := congrArg Settings.pageExtension (Except.ok.inj same)
      rw [if_pos none, none] at extension
      cases extension
    · intro some
      rw [if_neg some]
  · rw [again, if_pos none]

/-- A file system in which nothing stands. -/
def bareDirectory : Directory :=
  { tree := ⟨[]⟩, current := [] }

/-- A project that nobody has begun is at the path that is given. -/
theorem loadMapping_bareDirectory (platform : Platform) (mapping : Mapping) :
    loadMapping platform bareDirectory (.ofText (codes "/p")) mapping =
      ofMapping platform.codecs ⟨.root, [codes "p"]⟩ mapping := by
  have path : Path.ofText (codes "/p") = ⟨.root, [codes "p"]⟩ := by decide +kernel
  have found : bareDirectory.resolve ⟨.root, [codes "p"]⟩ = .ok ⟨.root, [codes "p"]⟩ := by
    decide +kernel
  have resolved : platform.homes.resolve bareDirectory (.ofText (codes "/p")) =
      .ok ⟨.root, [codes "p"]⟩ := by
    rw [path]
    exact bind_eq_ok_iff.mpr ⟨_, rfl, found⟩
  rw [loadMapping, resolved]
  rfl

/-- Settings some of which are numbers, have to be trimmed, or are words for something else. -/
def mixedMapping : Mapping :=
  [(.text (codes "project"), .int 7), (.text (codes "source_dir"), .text (codes "..//x/.")),
    (.text (codes "header_extension"), .text (codes "hpp")),
    (.text (codes "page_extension"), .text (codes "..htm")),
    (.text (codes "encoding"), .text (codes "latin-1")),
    (.text (codes "resolve_markers"), .text (codes " Yes")),
    (.text (codes "exclude_paths"), .sequence [.bool true, .null, .int (-1), .text (codes "a/")])]

/-- What is loaded from them. -/
def mixedSettings : Settings :=
  { root := ⟨.root, [codes "p"]⟩
    project := codes "7"
    sourceDirectory := ⟨.root, [codes "p", codes "..", codes "x"]⟩
    overview := ⟨.root, [codes "p", codes "README.md"]⟩
    headerExtension := codes ".hpp"
    implementationMarker := codes "_impl"
    pageExtension := codes "htm"
    encoding := "latin-1".toList
    language := codes "en"
    restoring := true
    excludedPaths := [codes "True", codes "-1", codes "a/"] }

/-- Settings from a mapping with texts, numbers, defaults and a dotted extension. -/
theorem loadMapping_spelledOut_mixedSettings :
    Path.Tidy ⟨.root, bareDirectory.current⟩ ∧
      loadMapping (.standard {}) bareDirectory (.ofText (codes "/p")) mixedMapping =
        .ok mixedSettings ∧
      loadMapping (.standard {}) bareDirectory (.ofText (codes "/p")) mixedSettings.spelledOut =
        .ok mixedSettings := by
  have current : Path.Tidy ⟨.root, bareDirectory.current⟩ := Path.tidy_nil .root
  have loaded : loadMapping (.standard {}) bareDirectory (.ofText (codes "/p")) mixedMapping =
      .ok mixedSettings := by
    rw [loadMapping_bareDirectory]
    decide +kernel
  have stopped : ¬ OnlyStops (mixedMapping.get "page_extension") := by
    rintro ⟨_, all⟩
    exact absurd (all (.char 'h') (by decide)) (by decide)
  exact ⟨current, loaded, (loadMapping_spelledOut current loaded).1.mpr stopped⟩

/-- A full stop for the extension of pages. -/
def stoppedMapping : Mapping :=
  [(.text (codes "page_extension"), .text (codes "."))]

/-- What is loaded from it. -/
def stoppedSettings : Settings :=
  { root := ⟨.root, [codes "p"]⟩
    project := codes "p"
    sourceDirectory := ⟨.root, [codes "p", codes "include", codes "p"]⟩
    overview := ⟨.root, [codes "p", codes "README.md"]⟩
    headerExtension := codes ".hh"
    implementationMarker := codes "_impl"
    pageExtension := []
    encoding := "utf-8".toList
    language := codes "en"
    restoring := false
    excludedPaths := [] }

/-- Nothing is left of the extension, and in its place the default is loaded. -/
theorem loadMapping_spelledOut_stoppedSettings :
    loadMapping (.standard {}) bareDirectory (.ofText (codes "/p")) stoppedMapping =
        .ok stoppedSettings ∧
      loadMapping (.standard {}) bareDirectory (.ofText (codes "/p")) stoppedSettings.spelledOut =
        .ok { stoppedSettings with pageExtension := codes "html" } ∧
      loadMapping (.standard {}) bareDirectory (.ofText (codes "/p")) stoppedSettings.spelledOut ≠
        .ok stoppedSettings := by
  have again : ofMapping (Platform.standard {}).codecs ⟨.root, [codes "p"]⟩
      stoppedSettings.spelledOut = .ok { stoppedSettings with pageExtension := codes "html" } := by
    decide +kernel
  simp only [loadMapping_bareDirectory]
  refine ⟨by decide +kernel, again, fun same => ?_⟩
  have extension := congrArg Settings.pageExtension (Except.ok.inj (again.symm.trans same))
  exact absurd extension (by decide)

end Settings
end HeaderBook
