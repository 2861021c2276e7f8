import HeaderBook.Settings
import HeaderBook.Proofs.FileFailure

/-!
# How loading settings fails

Settings are loaded in three steps: the root directory is resolved, the mapping is read
from the settings file, and the values are taken out of the mapping. `Escapes` lists
the failures along these steps for which no call has an explanation, each with what
brings it about, on any platform. Loaded settings name a codec.
-/

namespace HeaderBook

/-- The failures of a reader of YAML for which no call has an explanation. -/
structure Yaml.Failure.Unexplained (failure : Yaml.Failure) : Prop where
  formed : ∀ reason, failure ≠ .malformed reason
  legible : ∀ reason, failure ≠ .characters reason

/-- The failures of a codec for which no call has an explanation. -/
inductive Encoding.Failure.Unexplained : Encoding.Failure → Prop where
  | breakdown (reason : Text) : Unexplained (.breakdown reason)

namespace Settings

/-- The failures to load settings for which no call has an explanation. -/
inductive Failure.Unexplained : Failure → Prop where
  | files {failure : FileTree.Failure} (unexplained : failure.Unexplained) :
      Unexplained (.files failure)
  | scalar {failure : Yaml.Failure} (legible : ∀ reason, failure ≠ .characters reason) :
      Unexplained (.scalar failure)
  | unprintable : Unexplained .unprintable
  | encoding : Unexplained (.encoding .nullCharacter)
  | trial {failure : Encoding.Failure} (unexplained : failure.Unexplained) :
      Unexplained (.trial failure)

/-! ### Values -/

/-- An integer of too many digits to be written. -/
def Oversized : Yaml.Value → Prop
  | .int value => Nat.pow 10 Text.digitLimit ≤ value.natAbs
  | _ => False

/-- An integer has no text exactly when it is oversized. -/
theorem integerText_eq_error_iff {value : Int} {failure : Failure} :
    integerText value = .error failure ↔ Oversized (.int value) ∧ failure = .unprintable := by
  unfold integerText Oversized
  split
  next long =>
    constructor
    · intro equal
      exact ⟨long, (Except.error.inj equal).symm⟩
    · rintro ⟨_, rfl⟩
      rfl
  next short =>
    constructor
    · intro equal
      cases equal
    · rintro ⟨long, _⟩
      exact absurd long short

/-- Only an oversized integer has no text where there should be one. -/
theorem textOf?_eq_error_iff {value : Yaml.Value} {failure : Failure} :
    textOf? value = .error failure ↔ Oversized value ∧ failure = .unprintable := by
  cases value with
  | int number =>
      rw [← integerText_eq_error_iff, textOf?, bind_eq_error_iff]
      simp [pure, Except.pure]
  | null => simp [textOf?, Oversized]
  | bool => simp [textOf?, Oversized]
  | float => simp [textOf?, Oversized]
  | text => simp [textOf?, Oversized]
  | timestamp => simp [textOf?, Oversized]
  | binary => simp [textOf?, Oversized]
  | sequence => simp [textOf?, Oversized]
  | set => simp [textOf?, Oversized]
  | mapping => simp [textOf?, Oversized]

/-- An entry of a list has no text exactly when it is an oversized integer. -/
theorem entryText?_eq_error_iff {value : Yaml.Value} {failure : Failure} :
    entryText? value = .error failure ↔ Oversized value ∧ failure = .unprintable := by
  rw [← textOf?_eq_error_iff]
  cases value with
  | bool => simp [entryText?, textOf?]
  | _ => rfl

/-- A setting with a default fails exactly on an oversized integer. -/
theorem textOr_eq_error_iff {default : CodeText} {value : Yaml.Value} {failure : Failure} :
    textOr default value = .error failure ↔ Oversized value ∧ failure = .unprintable := by
  rw [← textOf?_eq_error_iff, textOr, bind_eq_error_iff]
  constructor
  · rintro (failed | ⟨text?, _, equal⟩)
    · exact failed
    · split at equal <;> cases equal
  · exact .inl

/-- A step that fails on oversized integers alone: one ends it, any other value has a
result. -/
theorem oversized_or_ok {α : Type} {result : Except Failure α} {value : Yaml.Value}
    (fails : ∀ {failure}, result = .error failure ↔ Oversized value ∧ failure = .unprintable) :
    Oversized value ∧ result = .error .unprintable ∨
      ¬ Oversized value ∧ ∃ text, result = .ok text := by
  cases result with
  | error failure =>
      obtain ⟨oversized, rfl⟩ := fails.mp rfl
      exact .inl ⟨oversized, rfl⟩
  | ok text =>
      refine .inr ⟨fun oversized => ?_, text, rfl⟩
      cases fails.mpr ⟨oversized, rfl⟩

/-- The entries of a list are written one by one, so one that is oversized is met. -/
theorem mapM_entryText?_eq_error_iff {items : List Yaml.Value} {failure : Failure} :
    items.mapM entryText? = .error failure ↔
      (∃ item ∈ items, Oversized item) ∧ failure = .unprintable := by
  induction items with
  | nil => simp [pure, Except.pure]
  | cons item items inductionHypothesis =>
      rw [List.mapM_cons, bind_eq_error_iff, entryText?_eq_error_iff]
      constructor
      · rintro (⟨oversized, rfl⟩ | ⟨_, _, rest⟩)
        · exact ⟨⟨item, List.mem_cons_self, oversized⟩, rfl⟩
        · rcases bind_eq_error_iff.mp rest with failed | ⟨_, _, equal⟩
          · obtain ⟨⟨other, member, oversized⟩, rfl⟩ := inductionHypothesis.mp failed
            exact ⟨⟨other, List.mem_cons_of_mem item member, oversized⟩, rfl⟩
          · cases equal
      · rintro ⟨⟨other, member, oversized⟩, rfl⟩
        have first : Oversized item ∧ entryText? item = .error .unprintable ∨
            ¬ Oversized item ∧ ∃ text?, entryText? item = .ok text? :=
          oversized_or_ok entryText?_eq_error_iff
        rcases first with ⟨here, _⟩ | ⟨small, text?, written⟩
        · exact .inl ⟨here, rfl⟩
        · have later : other ∈ items := by
            rcases List.mem_cons.mp member with rfl | later
            · exact absurd oversized small
            · exact later
          have failed := inductionHypothesis.mpr ⟨⟨other, later, oversized⟩, rfl⟩
          exact .inr ⟨text?, written, bind_eq_error_iff.mpr (.inl failed)⟩

/-- A list with an entry that is an oversized integer. -/
def HoldsOversized : Yaml.Value → Prop
  | .sequence items => ∃ item ∈ items, Oversized item
  | _ => False

/-- A list of texts fails exactly when it holds an oversized integer. -/
theorem textsOf_eq_error_iff {value : Yaml.Value} {failure : Failure} :
    textsOf value = .error failure ↔ HoldsOversized value ∧ failure = .unprintable := by
  cases value with
  | sequence items =>
      rw [HoldsOversized, ← mapM_entryText?_eq_error_iff, textsOf, bind_eq_error_iff]
      simp [pure, Except.pure]
  | null => simp [textsOf, HoldsOversized]
  | bool => simp [textsOf, HoldsOversized]
  | int => simp [textsOf, HoldsOversized]
  | float => simp [textsOf, HoldsOversized]
  | text => simp [textsOf, HoldsOversized]
  | timestamp => simp [textsOf, HoldsOversized]
  | binary => simp [textsOf, HoldsOversized]
  | set => simp [textsOf, HoldsOversized]
  | mapping => simp [textsOf, HoldsOversized]

/-! ### Mappings -/

/-- The keys whose values are written before the encoding is looked up. -/
def earlyKeys : List String :=
  ["project", "source_dir", "overview", "header_extension", "implementation_marker",
    "page_extension", "encoding"]

/-- How the values of a mapping fail without an explanation. -/
inductive MappingEscapes (codecs : Codecs) (mapping : Mapping) : Failure → Prop where
  /-- An integer is too long to be written. -/
  | early {key : String} (known : key ∈ earlyKeys) (oversized : Oversized (mapping.get key)) :
      MappingEscapes codecs mapping .unprintable
  /-- The name of the encoding holds a null character. -/
  | encoding {spelled : CodeText} {name : Text}
      (written : ∀ key ∈ earlyKeys, ¬ Oversized (mapping.get key))
      (given : textOr (codes "utf-8") (mapping.get "encoding") = .ok spelled)
      (characters : Encoding.Utf8.characters spelled = .ok name) (null : '\x00' ∈ name) :
      MappingEscapes codecs mapping (.encoding .nullCharacter)
  /-- The codec breaks down on the empty text. -/
  | trial {spelled : CodeText} {name : Text} {codec : Codec} {failure : Encoding.Failure}
      (written : ∀ key ∈ earlyKeys, ¬ Oversized (mapping.get key))
      (given : textOr (codes "utf-8") (mapping.get "encoding") = .ok spelled)
      (characters : Encoding.Utf8.characters spelled = .ok name)
      (named : codecs.find name = .ok codec) (unexplained : failure.Unexplained)
      (fails : codec.encode [] = .error failure) :
      MappingEscapes codecs mapping (.trial failure)
  /-- The encoding is usable, and an integer that is taken out after it is too long. -/
  | late {spelled : CodeText} {name : Text}
      (written : ∀ key ∈ earlyKeys, ¬ Oversized (mapping.get key))
      (given : textOr (codes "utf-8") (mapping.get "encoding") = .ok spelled)
      (characters : Encoding.Utf8.characters spelled = .ok name)
      (checked : checkEncoding codecs name = .ok ())
      (oversized : Oversized (mapping.get "language") ∨
        HoldsOversized (mapping.get "exclude_paths")) :
      MappingEscapes codecs mapping .unprintable

/-- Either the computation fails on an oversized integer under one of the keys, or there
is none and the computation is as `Rest` says. -/
def Writes (mapping : Mapping) (keys : List String) (computation : Except Failure Settings)
    (Rest : Except Failure Settings → Prop) : Prop :=
  (∃ key ∈ keys, Oversized (mapping.get key)) ∧ computation = .error .unprintable ∨
    (∀ key ∈ keys, ¬ Oversized (mapping.get key)) ∧ Rest computation

/-- Without further keys the rest of the computation decides. -/
theorem Writes.nil {mapping : Mapping} {computation : Except Failure Settings}
    {Rest : Except Failure Settings → Prop} (rest : Rest computation) :
    Writes mapping [] computation Rest :=
  .inr ⟨by simp, rest⟩

/-- A setting that fails on oversized integers only is done before the others. -/
theorem Writes.cons {α : Type} {mapping : Mapping} {key : String} {keys : List String}
    {result : Except Failure α} {next : α → Except Failure Settings}
    {Rest : Except Failure Settings → Prop}
    (fails : ∀ {failure}, result = .error failure ↔
      Oversized (mapping.get key) ∧ failure = .unprintable)
    (rest : ∀ text, result = .ok text → Writes mapping keys (next text) Rest) :
    Writes mapping (key :: keys) (result >>= next) Rest := by
  rcases oversized_or_ok fails with ⟨long, failed⟩ | ⟨small, text, given⟩
  · exact .inl ⟨⟨key, List.mem_cons_self, long⟩, by rw [failed]; rfl⟩
  · rw [given]
    rcases rest text given with ⟨⟨other, member, long⟩, failed⟩ | ⟨none, holds⟩
    · exact .inl ⟨⟨other, List.mem_cons_of_mem key member, long⟩, failed⟩
    · exact .inr ⟨List.forall_mem_cons.mpr ⟨small, none⟩, holds⟩

/-- What is left to do when the values up to the encoding are written. -/
def finish (codecs : Codecs) (mapping : Mapping) (spelled : CodeText)
    (complete : Text → CodeText → List CodeText → Settings) : Except Failure Settings := do
  let encoding ← (Encoding.Utf8.characters spelled).mapError .surrogates
  checkEncoding codecs encoding
  let language ← textOr (codes "en") (mapping.get "language")
  let excludedPaths ← textsOf (mapping.get "exclude_paths")
  return complete encoding language excludedPaths

/-- The values up to the encoding are written one after the other, and then the
encoding, which is kept in the settings, is checked. -/
theorem writes_ofMapping (codecs : Codecs) (root : Path) (mapping : Mapping) :
    Writes mapping earlyKeys (ofMapping codecs root mapping) fun computation =>
      ∃ spelled complete, textOr (codes "utf-8") (mapping.get "encoding") = .ok spelled ∧
        (∀ encoding language excluded,
          (complete encoding language excluded : Settings).encoding = encoding) ∧
        computation = finish codecs mapping spelled complete := by
  refine .cons textOr_eq_error_iff fun project _ => ?_
  refine .cons textOr_eq_error_iff fun source _ => ?_
  refine .cons textOr_eq_error_iff fun overview _ => ?_
  refine .cons textOr_eq_error_iff fun extension _ => ?_
  refine .cons textOf?_eq_error_iff fun marker? _ => ?_
  refine .cons textOr_eq_error_iff fun page _ => ?_
  refine .cons textOr_eq_error_iff fun spelled given => ?_
  refine .nil ⟨spelled, _, given, fun _ _ _ => ?_, rfl⟩
  rfl

/-- A codec is not found for want of a proper name exactly where the name holds a null
character. -/
theorem find_eq_nullCharacter_iff {codecs : Codecs} {name : Text} :
    codecs.find name = .error .nullCharacter ↔ '\x00' ∈ name := by
  unfold Codecs.find
  split
  next null => simpa using null
  next free =>
    have absent : '\x00' ∉ name := by simpa using free
    simp only [absent, iff_false]
    split <;> simp

/-- An encoding passes the check when its codec is found and encodes the empty text. -/
theorem checkEncoding_eq_ok_iff {codecs : Codecs} {name : Text} :
    checkEncoding codecs name = .ok () ↔
      ∃ codec bytes, codecs.find name = .ok codec ∧ codec.encode [] = .ok bytes := by
  rw [checkEncoding, bind_eq_ok_iff]
  constructor
  · rintro ⟨codec, named, rest⟩
    obtain ⟨bytes, tried, _⟩ := bind_eq_ok_iff.mp rest
    exact ⟨codec, bytes, mapError_eq_ok_iff.mp named, mapError_eq_ok_iff.mp tried⟩
  · rintro ⟨codec, bytes, named, tried⟩
    exact ⟨codec, mapError_eq_ok_iff.mpr named,
      bind_eq_ok_iff.mpr ⟨bytes, mapError_eq_ok_iff.mpr tried, rfl⟩⟩

/-- An encoding fails the check as its codec is not found, or as the codec fails on the
empty text. -/
theorem checkEncoding_eq_error_iff {codecs : Codecs} {name : Text} {failure : Failure} :
    checkEncoding codecs name = .error failure ↔
      (∃ unnamed, codecs.find name = .error unnamed ∧ .encoding unnamed = failure) ∨
      ∃ codec reason, codecs.find name = .ok codec ∧ codec.encode [] = .error reason ∧
        .trial reason = failure := by
  rw [checkEncoding, bind_eq_error_iff, mapError_eq_error_iff]
  refine or_congr_right (exists_congr fun codec => ?_)
  rw [mapError_eq_ok_iff, bind_eq_error_iff, mapError_eq_error_iff, exists_and_left]
  refine and_congr_right fun _ => ?_
  constructor
  · rintro (failed | ⟨_, _, equal⟩)
    · exact failed
    · cases equal
  · exact .inl

/-- The values after the encoding fail on an oversized integer in either of them. -/
theorem lateValues_eq_error_iff {default : CodeText} {language excluded : Yaml.Value}
    {complete : CodeText → List CodeText → Settings} {failure : Failure} :
    (do
      let text ← textOr default language
      let texts ← textsOf excluded
      return complete text texts) = .error failure ↔
      (Oversized language ∨ HoldsOversized excluded) ∧ failure = .unprintable := by
  rw [bind_eq_error_iff, textOr_eq_error_iff]
  constructor
  · rintro (⟨oversized, rfl⟩ | ⟨_, _, rest⟩)
    · exact ⟨.inl oversized, rfl⟩
    · rcases bind_eq_error_iff.mp rest with failed | ⟨_, _, equal⟩
      · obtain ⟨oversized, rfl⟩ := textsOf_eq_error_iff.mp failed
        exact ⟨.inr oversized, rfl⟩
      · cases equal
  · rintro ⟨oversized, rfl⟩
    have first : Oversized language ∧ textOr default language = .error .unprintable ∨
        ¬ Oversized language ∧ ∃ text, textOr default language = .ok text :=
      oversized_or_ok textOr_eq_error_iff
    rcases first with ⟨here, _⟩ | ⟨small, text, written⟩
    · exact .inl ⟨here, rfl⟩
    · have failed := textsOf_eq_error_iff.mpr ⟨oversized.resolve_left small, rfl⟩
      exact .inr ⟨text, written, bind_eq_error_iff.mpr (.inl failed)⟩

/-- Finishing fails on surrogates in the name of the encoding, on an encoding that fails
the check, or on an oversized integer after it. -/
theorem finish_eq_error_iff {codecs : Codecs} {mapping : Mapping} {spelled : CodeText}
    {complete : Text → CodeText → List CodeText → Settings} {failure : Failure} :
    finish codecs mapping spelled complete = .error failure ↔
      (∃ surrogates, Encoding.Utf8.characters spelled = .error surrogates ∧
        .surrogates surrogates = failure) ∨
      ∃ name, Encoding.Utf8.characters spelled = .ok name ∧
        (checkEncoding codecs name = .error failure ∨
          checkEncoding codecs name = .ok () ∧
            (Oversized (mapping.get "language") ∨ HoldsOversized (mapping.get "exclude_paths")) ∧
            failure = .unprintable) := by
  rw [finish, bind_eq_error_iff, mapError_eq_error_iff]
  refine or_congr_right (exists_congr fun name => and_congr mapError_eq_ok_iff ?_)
  rw [bind_eq_error_iff]
  refine or_congr_right ?_
  constructor
  · rintro ⟨_, checked, late⟩
    exact ⟨checked, lateValues_eq_error_iff.mp late⟩
  · rintro ⟨checked, late⟩
    exact ⟨(), checked, lateValues_eq_error_iff.mpr late⟩

/-- The values of a mapping fail without an explanation in the listed ways only. -/
theorem mappingEscapes_iff {codecs : Codecs} {root : Path} {mapping : Mapping}
    {failure : Failure} :
    ofMapping codecs root mapping = .error failure ∧ failure.Unexplained ↔
      MappingEscapes codecs mapping failure := by
  rcases writes_ofMapping codecs root mapping with
    ⟨⟨key, known, oversized⟩, failed⟩ | ⟨written, spelled, complete, given, _, rest⟩
  · rw [failed]
    constructor
    · rintro ⟨equal, _⟩
      rw [← Except.error.inj equal]
      exact .early known oversized
    · intro escapes
      cases escapes with
      | early => exact ⟨rfl, .unprintable⟩
      | encoding written => exact absurd oversized (written key known)
      | trial written => exact absurd oversized (written key known)
      | late written => exact absurd oversized (written key known)
  · rw [rest, finish_eq_error_iff]
    constructor
    · rintro ⟨⟨_, _, rfl⟩ | ⟨name, characters, unchecked | ⟨checked, oversized, rfl⟩⟩, unexplained⟩
      · cases unexplained
      · rcases checkEncoding_eq_error_iff.mp unchecked with
          ⟨_, unnamed, rfl⟩ | ⟨codec, reason, named, fails, rfl⟩
        · cases unexplained
          exact .encoding written given characters (find_eq_nullCharacter_iff.mp unnamed)
        · cases unexplained with
          | trial unexplained => exact .trial written given characters named unexplained fails
      · exact .late written given characters checked oversized
    · intro escapes
      cases escapes with
      | early known oversized => exact absurd oversized (written _ known)
      | encoding _ again characters null =>
          obtain rfl := Except.ok.inj (given.symm.trans again)
          have unnamed : codecs.find _ = .error .nullCharacter := find_eq_nullCharacter_iff.mpr null
          have unchecked := checkEncoding_eq_error_iff.mpr (.inl ⟨_, unnamed, rfl⟩)
          exact ⟨.inr ⟨_, characters, .inl unchecked⟩, .encoding⟩
      | trial _ again characters named unexplained fails =>
          obtain rfl := Except.ok.inj (given.symm.trans again)
          have unchecked := checkEncoding_eq_error_iff.mpr (.inr ⟨_, _, named, fails, rfl⟩)
          exact ⟨.inr ⟨_, characters, .inl unchecked⟩, .trial unexplained⟩
      | late _ again characters checked oversized =>
          obtain rfl := Except.ok.inj (given.symm.trans again)
          exact ⟨.inr ⟨_, characters, .inr ⟨checked, oversized, rfl⟩⟩, .unprintable⟩

/-- The codec of settings that were taken out of a mapping is found. -/
theorem exists_codec_of_ofMapping {codecs : Codecs} {root : Path} {mapping : Mapping}
    {settings : Settings} (taken : ofMapping codecs root mapping = .ok settings) :
    ∃ codec, codecs.find settings.encoding = .ok codec := by
  rcases writes_ofMapping codecs root mapping with
    ⟨_, failed⟩ | ⟨_, spelled, complete, _, keeps, rest⟩
  · cases taken.symm.trans failed
  · rw [rest] at taken
    obtain ⟨name, _, taken⟩ := bind_eq_ok_iff.mp taken
    obtain ⟨_, checked, taken⟩ := bind_eq_ok_iff.mp taken
    obtain ⟨language, _, taken⟩ := bind_eq_ok_iff.mp taken
    obtain ⟨excluded, _, equal⟩ := bind_eq_ok_iff.mp taken
    obtain rfl := Except.ok.inj equal
    obtain ⟨codec, _, named, _⟩ := checkEncoding_eq_ok_iff.mp checked
    exact ⟨codec, by rw [keeps, named]⟩

/-! ### Loading -/

/-- The text of a settings file fails without an explanation when the reader of YAML
does. -/
theorem mappingOf_escapes_iff {yaml : Text → Except Yaml.Failure Yaml.Value} {file : CodeText}
    {text : Text} {failure : Failure} :
    mappingOf yaml file text = .error failure ∧ failure.Unexplained ↔
      text.all Text.isBlank = false ∧
        ∃ reason, yaml text = .error reason ∧ reason.Unexplained ∧ failure = .scalar reason := by
  unfold mappingOf
  cases blank : text.all Text.isBlank with
  | true =>
      constructor
      · rintro ⟨equal, _⟩
        cases equal
      · rintro ⟨equal, _⟩
        cases equal
  | false =>
      simp only [Bool.false_eq_true, if_false, true_and]
      cases yaml text with
      | ok value =>
          constructor
          · rintro ⟨equal, unexplained⟩
            cases value with
            | null => cases equal
            | mapping => cases equal
            | _ =>
                cases equal
                cases unexplained
          · rintro ⟨_, equal, _⟩
            cases equal
      | error reason =>
          cases reason with
          | malformed complaint =>
              -- This one is reported with the name of the file, and all others are passed on.
              constructor
              · rintro ⟨equal, unexplained⟩
                cases equal
                cases unexplained
              · rintro ⟨_, equal, unexplained, _⟩
                cases equal
                exact absurd rfl (unexplained.formed complaint)
          | _ =>
              constructor
              · rintro ⟨equal, unexplained⟩
                cases equal
                cases unexplained with
                | scalar legible => exact ⟨_, rfl, ⟨by simp, legible⟩, rfl⟩
              · rintro ⟨_, equal, unexplained, rfl⟩
                cases equal
                exact ⟨rfl, .scalar unexplained.legible⟩

/-- Reading a settings file fails without an explanation in that way only: a file that
is looked for is not refused. -/
theorem readMapping_escapes_iff {yaml : Text → Except Yaml.Failure Yaml.Value} {here : Directory}
    {file : Path} {failure : Failure} :
    readMapping yaml here file = .error failure ∧ failure.Unexplained ↔
      ∃ bytes text, here.read file = .ok bytes ∧ Encoding.Utf8.decode bytes = .ok text ∧
        mappingOf yaml file.name (Encoding.unifyLineBreaks text) = .error failure ∧
        failure.Unexplained := by
  rw [readMapping, bind_eq_error_iff, mapError_eq_error_iff]
  constructor
  · rintro ⟨⟨_, lost, rfl⟩ | ⟨held, found, rest⟩, unexplained⟩
    · rw [Directory.find_error lost] at unexplained
      cases unexplained with
      | files unexplained => cases unexplained
    · cases held with
      | none => cases rest
      | some entry =>
          have free := Directory.refusal?_of_find (mapError_eq_ok_iff.mp found)
          rw [Option.isNone_some, if_neg (by decide)] at rest
          rcases bind_eq_error_iff.mp rest with unread | ⟨bytes, read, rest⟩
          · obtain ⟨_, lost, rfl⟩ := mapError_eq_error_iff.mp unread
            cases unexplained with
            | files unexplained =>
                rcases Directory.read_error lost with refused | ⟨_, rfl⟩
                · cases free.symm.trans refused
                · cases unexplained
          rcases bind_eq_error_iff.mp rest with undecoded | ⟨text, decoded, rest⟩
          · obtain ⟨_, _, rfl⟩ := mapError_eq_error_iff.mp undecoded
            cases unexplained
          · exact ⟨bytes, text, mapError_eq_ok_iff.mp read, mapError_eq_ok_iff.mp decoded, rest,
              unexplained⟩
  · rintro ⟨bytes, text, read, decoded, fails, unexplained⟩
    refine ⟨.inr ⟨_, mapError_eq_ok_iff.mpr (Directory.find_of_read read), ?_⟩, unexplained⟩
    rw [Option.isNone_some, if_neg (by decide)]
    exact bind_eq_error_iff.mpr (.inr ⟨bytes, mapError_eq_ok_iff.mpr read,
      bind_eq_error_iff.mpr (.inr ⟨text, mapError_eq_ok_iff.mpr decoded, fails⟩)⟩)

/-- The settings file that is read for a resolved root directory. -/
def locate (platform : Platform) (root : Path) (file : Option Path) :
    Except FileTree.Failure Path :=
  platform.homes.expand (file.getD (root.child fileName))

/-- How loading settings fails without an explanation. -/
inductive Escapes (platform : Platform) (here : Directory) (root : Path) (file : Option Path) :
    Failure → Prop where
  /-- The path of the root directory cannot be resolved. -/
  | root {failure : FileTree.Failure} (unexplained : failure.Unexplained)
      (lost : platform.homes.resolve here root = .error failure) :
      Escapes platform here root file (.files failure)
  /-- The path of the settings file starts at a home directory that cannot be told. -/
  | file {resolved : Path} {failure : FileTree.Failure} (unexplained : failure.Unexplained)
      (found : platform.homes.resolve here root = .ok resolved)
      (lost : locate platform resolved file = .error failure) :
      Escapes platform here root file (.files failure)
  /-- The reader of YAML fails on the settings file. -/
  | scalar {resolved located : Path} {bytes : Bytes} {text : Text} {reason : Yaml.Failure}
      (found : platform.homes.resolve here root = .ok resolved)
      (there : locate platform resolved file = .ok located)
      (read : here.read located = .ok bytes)
      (decoded : Encoding.Utf8.decode bytes = .ok text)
      (visible : (Encoding.unifyLineBreaks text).all Text.isBlank = false)
      (fails : platform.yaml (Encoding.unifyLineBreaks text) = .error reason)
      (unexplained : reason.Unexplained) :
      Escapes platform here root file (.scalar reason)
  /-- A value of the mapping fails. -/
  | value {resolved located : Path} {mapping : Mapping} {failure : Failure}
      (found : platform.homes.resolve here root = .ok resolved)
      (there : locate platform resolved file = .ok located)
      (read : readMapping platform.yaml here located = .ok mapping)
      (escapes : MappingEscapes platform.codecs mapping failure) :
      Escapes platform here root file failure

/-- Loading settings fails without an explanation in the listed ways only. -/
theorem escapes_iff {platform : Platform} {here : Directory} {root : Path} {file : Option Path}
    {failure : Failure} :
    load platform here root file = .error failure ∧ failure.Unexplained ↔
      Escapes platform here root file failure := by
  rw [load, bind_eq_error_iff, mapError_eq_error_iff]
  constructor
  · rintro ⟨⟨lost, unresolved, rfl⟩ | ⟨resolved, found, rest⟩, unexplained⟩
    · cases unexplained with
      | files unexplained => exact .root unexplained unresolved
    have found := mapError_eq_ok_iff.mp found
    rcases bind_eq_error_iff.mp rest with unlocated | ⟨located, there, rest⟩
    · obtain ⟨lost, failed, rfl⟩ := mapError_eq_error_iff.mp unlocated
      cases unexplained with
      | files unexplained => exact .file unexplained found failed
    have there := mapError_eq_ok_iff.mp there
    rcases bind_eq_error_iff.mp rest with unread | ⟨mapping, read, failed⟩
    · obtain ⟨bytes, text, read, decoded, failed, _⟩ :=
        readMapping_escapes_iff.mp ⟨unread, unexplained⟩
      obtain ⟨visible, reason, fails, without, rfl⟩ :=
        mappingOf_escapes_iff.mp ⟨failed, unexplained⟩
      exact .scalar found there read decoded visible fails without
    · exact .value found there read (mappingEscapes_iff.mp ⟨failed, unexplained⟩)
  · intro escapes
    cases escapes with
    | root unexplained lost => exact ⟨.inl ⟨_, lost, rfl⟩, .files unexplained⟩
    | file unexplained found lost =>
        exact ⟨.inr ⟨_, mapError_eq_ok_iff.mpr found,
          bind_eq_error_iff.mpr (.inl (mapError_eq_error_iff.mpr ⟨_, lost, rfl⟩))⟩,
          .files unexplained⟩
    | scalar found there read decoded visible fails unexplained =>
        obtain ⟨failed, unexplained⟩ := mappingOf_escapes_iff.mpr
          ⟨visible, _, fails, unexplained, rfl⟩
        obtain ⟨unread, _⟩ := readMapping_escapes_iff.mpr
          ⟨_, _, read, decoded, failed, unexplained⟩
        exact ⟨.inr ⟨_, mapError_eq_ok_iff.mpr found,
          bind_eq_error_iff.mpr (.inr ⟨_, mapError_eq_ok_iff.mpr there,
            bind_eq_error_iff.mpr (.inl unread)⟩)⟩, unexplained⟩
    | value found there read escapes =>
        obtain ⟨failed, unexplained⟩ := mappingEscapes_iff.mpr escapes
        exact ⟨.inr ⟨_, mapError_eq_ok_iff.mpr found,
          bind_eq_error_iff.mpr (.inr ⟨_, mapError_eq_ok_iff.mpr there,
            bind_eq_error_iff.mpr (.inr ⟨_, read, failed⟩)⟩)⟩, unexplained⟩

/-- Loaded settings are taken out of a mapping for a resolved root directory. -/
theorem exists_ofMapping_of_load {platform : Platform} {here : Directory} {root : Path}
    {file : Option Path} {settings : Settings}
    (loaded : load platform here root file = .ok settings) :
    ∃ resolved mapping, platform.homes.resolve here root = .ok resolved ∧
      ofMapping platform.codecs resolved mapping = .ok settings := by
  obtain ⟨resolved, found, rest⟩ := bind_eq_ok_iff.mp loaded
  obtain ⟨located, _, rest⟩ := bind_eq_ok_iff.mp rest
  obtain ⟨mapping, _, taken⟩ := bind_eq_ok_iff.mp rest
  exact ⟨resolved, mapping, mapError_eq_ok_iff.mp found, taken⟩

end Settings
end HeaderBook
