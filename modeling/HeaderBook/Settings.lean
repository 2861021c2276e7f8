import HeaderBook.Encoding.Utf8
import HeaderBook.FileTree.Access
import HeaderBook.HeaderRule
import HeaderBook.Platform
import HeaderBook.Text.Blank

/-!
# Settings

The settings of a documentation run belong to a project's root directory. They
come from a YAML mapping, in which every key may be missing; values of the wrong
kind count as missing. Numbers are taken by their text.
-/

namespace HeaderBook

/-- The settings of one run. -/
structure Settings where
  /-- The project's root directory, absolute and free of links. -/
  root : Path
  project : CodeText
  /-- The directory that holds the headers. -/
  sourceDirectory : Path
  /-- The text shown on the index page. -/
  overview : Path
  headerExtension : CodeText
  implementationMarker : CodeText
  /-- The extension of page names, without the full stop before it. -/
  pageExtension : CodeText
  /-- The name of the encoding of all texts, as it was spelled. -/
  encoding : Text
  language : CodeText
  /-- Pages show restored source instead of folded text. -/
  restoring : Bool
  excludedPaths : List CodeText
  deriving DecidableEq, Repr

namespace Settings

/-- The name of the settings file in a root directory. -/
def fileName : CodeText := codes ".hdrdoc.yml"

/-- Why settings could not be loaded. -/
inductive Failure where
  | files (failure : FileTree.Failure)
  /-- The settings file is no UTF-8 text. -/
  | bytes (failure : Encoding.DecodeFailure)
  /-- The settings file is not YAML. -/
  | malformed (file : CodeText) (failure : Yaml.Failure)
  /-- The settings file holds something other than a mapping. -/
  | notMapping (file : CodeText)
  /-- A scalar of the settings file denotes nothing. -/
  | scalar (failure : Yaml.Failure)
  /-- A number has too many digits to be written. -/
  | unprintable
  /-- The name of the encoding holds surrogates. -/
  | surrogates (failure : Encoding.EncodeFailure)
  | encoding (failure : Encoding.NameFailure)
  /-- The encoding fails on the empty text. -/
  | trial (failure : Encoding.Failure)
  deriving DecidableEq, Repr

/-- The refusal of a setting that names no encoding, as it is reported. -/
def encodingRefusal : Encoding.NameFailure → Text
  | .unknown name | .notText name => "Unknown output encoding: ".toList ++ name
  | .nullCharacter => Encoding.NameFailure.nullCharacter.message

/-- A failure as it is reported. -/
def Failure.message : Failure → CodeText
  | .files failure => CodeText.ofText failure.message
  | .bytes failure => CodeText.ofText failure.message
  | .malformed file failure =>
    codes "Failed to parse " ++ file ++ codes ": " ++ CodeText.ofText failure.message
  | .notMapping file => file ++ codes " must contain a mapping at the root"
  | .scalar failure => CodeText.ofText failure.message
  | .unprintable =>
    codes "Exceeds the limit (4300 digits) for integer string conversion; " ++
      codes "use sys.set_int_max_str_digits() to increase the limit"
  | .surrogates failure => CodeText.ofText failure.message
  | .encoding failure => CodeText.ofText (encodingRefusal failure)
  | .trial failure => CodeText.ofText failure.message

/-- The pairs of a YAML mapping. -/
abbrev Mapping := List (Yaml.Value × Yaml.Value)

/-- The value of a key. The last of several equal keys counts. -/
def Mapping.get (mapping : Mapping) (key : String) : Yaml.Value :=
  let holds (pair : Yaml.Value × Yaml.Value) : Bool :=
    match pair.1 with
    | .text name => name = codes key
    | _ => false
  match mapping.reverse.find? holds with
  | some (_, value) => value
  | none => .null

/-- Fractions are written positionally from four places after the point to
sixteen before it, and with an exponent of two digits or more otherwise. -/
def fractionLayout : Text.DecimalLayout := ⟨-3, 16, 2⟩

/-- The text of a fraction. -/
def fractionText (value : Float) : Text :=
  match Text.DecimalForm.ofBits value.toBits with
  | .finite form => fractionLayout.render form
  | .infinite negative => (if negative then "-inf" else "inf").toList
  | .notANumber => "nan".toList

/-- The text of an integer. -/
def integerText (value : Int) : Except Failure Text :=
  let written := Text.signedDecimal value
  if Nat.pow 10 Text.digitLimit ≤ value.natAbs then .error .unprintable else .ok written

/-- The text of a text or number; other values have none. -/
def textOf? : Yaml.Value → Except Failure (Option CodeText)
  | .text value => .ok (some value)
  | .int value => do return some (CodeText.ofText (← integerText value))
  | .float value => .ok (some (CodeText.ofText (fractionText value)))
  | _ => .ok none

/-- The text of a value, or `default` if it has none or an empty one. -/
def textOr (default : CodeText) (value : Yaml.Value) : Except Failure CodeText := do
  match ← textOf? value with
  | none | some [] => return default
  | some text => return text

/-- The truth value of a value, if it has one. Texts may spell it. -/
def truthOf? : Yaml.Value → Option Bool
  | .bool value => some value
  | .text value => do
    let trimmed := Text.trim (fun code => code.char?.any Text.isBlank) value
    let word := String.ofList (Text.lowerAscii (← trimmed.mapM CodePoint.char?))
    if ["true", "yes", "1"].contains word then some true
    else if ["false", "no", "0"].contains word then some false
    else none
  | _ => none

/-- The text of a list's entry; truth values have one here. -/
def entryText? : Yaml.Value → Except Failure (Option CodeText)
  | .bool value => .ok (some (codes (if value then "True" else "False")))
  | value => textOf? value

/-- The texts of a list. A single text is a list of its own, and binary data is the list
of its bytes. -/
def textsOf : Yaml.Value → Except Failure (List CodeText)
  | .text value => .ok [value]
  | .sequence items => do
    let texts ← items.mapM entryText?
    return texts.filterMap id
  | .binary content => .ok (content.map fun byte => CodeText.ofText (Text.decimal byte.toNat))
  | _ => .ok []

/-- An extension with the full stop in front. -/
def dotted (extension : CodeText) : CodeText :=
  if extension.head? = some (.char '.') then extension else '.' :: extension

/-- Makes sure that a name names an encoding that can encode a text. -/
def checkEncoding (codecs : Codecs) (name : Text) : Except Failure Unit := do
  let codec ← (codecs.find name).mapError .encoding
  let _ ← (codec.encode []).mapError .trial

/-- The settings that a mapping gives to the project at `root`. -/
def ofMapping (codecs : Codecs) (root : Path) (mapping : Mapping) : Except Failure Settings := do
  let project ← textOr root.name (mapping.get "project")
  let source ← textOr (codes "include/" ++ project) (mapping.get "source_dir")
  let overview ← textOr (codes "README.md") (mapping.get "overview")
  let extension ← textOr ({} : HeaderRule).extension (mapping.get "header_extension")
  let marker? ← textOf? (mapping.get "implementation_marker")
  let page ← textOr (codes "html") (mapping.get "page_extension")
  let encoding ← textOr (codes "utf-8") (mapping.get "encoding")
  let encoding ← (Encoding.Utf8.characters encoding).mapError .surrogates
  checkEncoding codecs encoding
  let language ← textOr (codes "en") (mapping.get "language")
  let excludedPaths ← textsOf (mapping.get "exclude_paths")
  return {
    root
    project
    sourceDirectory := root.child source
    overview := root.child overview
    headerExtension := dotted extension
    implementationMarker := marker?.getD ({} : HeaderRule).implementationMarker
    pageExtension := page.dropWhile (· = '.')
    encoding
    language
    restoring := (truthOf? (mapping.get "resolve_markers")).getD false
    excludedPaths }

/-- The mapping in the text of a settings file with the given name. A blank text
and an absent value are empty mappings. -/
def mappingOf (yaml : Text → Except Yaml.Failure Yaml.Value) (file : CodeText) (text : Text) :
    Except Failure Mapping := do
  if text.all Text.isBlank then
    return []
  match yaml text with
  | .ok .null => return []
  | .ok (.mapping pairs) => return pairs
  | .ok _ => throw (.notMapping file)
  | .error (.malformed reason) => throw (.malformed file (.malformed reason))
  | .error failure => throw (.scalar failure)

/-- The mapping in a settings file; a missing file gives the empty one. -/
def readMapping (yaml : Text → Except Yaml.Failure Yaml.Value) (here : Directory) (file : Path) :
    Except Failure Mapping := do
  if (← (here.find file).mapError .files).isNone then
    return []
  let bytes ← (here.read file).mapError .files
  let text ← (Encoding.Utf8.decode bytes).mapError .bytes
  mappingOf yaml file.name (Encoding.unifyLineBreaks text)

/-- Loads the settings of the project at `root` from `file`, by default the
settings file in the root directory. -/
def load (platform : Platform) (here : Directory) (root : Path) (file : Option Path) :
    Except Failure Settings := do
  let root ← (platform.homes.resolve here root).mapError .files
  let file ← (platform.homes.expand (file.getD (root.child fileName))).mapError .files
  let mapping ← readMapping platform.yaml here file
  ofMapping platform.codecs root mapping

/-- Settings that replace loaded ones where they are given. They are not looked
into: a name that names no encoding is met when a text is read. -/
structure Overrides where
  root : Option Path := none
  project : Option CodeText := none
  sourceDirectory : Option Path := none
  overview : Option Path := none
  headerExtension : Option CodeText := none
  implementationMarker : Option CodeText := none
  pageExtension : Option CodeText := none
  encoding : Option Text := none
  language : Option CodeText := none
  restoring : Option Bool := none
  excludedPaths : Option (List CodeText) := none
  deriving DecidableEq, Repr

/-- Replaces the given settings and keeps all others as they are. -/
def override (settings : Settings) (overrides : Overrides) : Settings :=
  { root := overrides.root.getD settings.root
    project := overrides.project.getD settings.project
    sourceDirectory := overrides.sourceDirectory.getD settings.sourceDirectory
    overview := overrides.overview.getD settings.overview
    headerExtension := overrides.headerExtension.getD settings.headerExtension
    implementationMarker := overrides.implementationMarker.getD settings.implementationMarker
    pageExtension := overrides.pageExtension.getD settings.pageExtension
    encoding := overrides.encoding.getD settings.encoding
    language := overrides.language.getD settings.language
    restoring := overrides.restoring.getD settings.restoring
    excludedPaths := overrides.excludedPaths.getD settings.excludedPaths }

/-- Which files are headers. -/
def headerRule (settings : Settings) : HeaderRule :=
  ⟨settings.headerExtension, settings.implementationMarker⟩

end Settings
end HeaderBook
