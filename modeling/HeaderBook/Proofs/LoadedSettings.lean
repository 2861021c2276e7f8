import HeaderBook.Generation
import HeaderBook.Proofs.SpelledSettings

/-!
# Headers under loaded settings

A header rule accepts a path or rejects it for a reason. Under settings that were loaded, every
header has a full stop in its path, and the encoding of all texts has a codec. Where the settings
come from does not matter: they are taken out of some mapping, for some root directory.
-/

namespace HeaderBook

/-! ### Which files are headers -/

/-- A text occurs in another as a stretch of it. -/
theorem CodeText.occursIn_iff {part whole : CodeText} :
    CodeText.occursIn part whole = true ↔ part <:+: whole := by
  induction whole with
  | nil => rw [occursIn, List.isEmpty_iff, List.infix_nil]
  | cons code rest inductionHypothesis =>
      rw [occursIn, Bool.or_eq_true, List.isPrefixOf_iff_prefix, inductionHypothesis,
        List.infix_cons_iff]

namespace HeaderRule

variable {rule : HeaderRule} {path : CodeText} {rejection : Rejection}

/-- Why a rule rejects a path. -/
inductive Rejects (rule : HeaderRule) (path : CodeText) : Rejection → Prop where
  | wrongExtension (apart : ¬ rule.extension <:+ path) :
      Rejects rule path (.wrongExtension rule.extension)
  | implementationFile (ends : rule.extension <:+ path) (some : rule.implementationMarker ≠ [])
      (occurs : rule.implementationMarker <:+: path) :
      Rejects rule path (.implementationFile rule.implementationMarker)

/-- A rule accepts the paths that end with its extension and do not contain its marker. The
empty marker is in no path. -/
structure Accepts (rule : HeaderRule) (path : CodeText) : Prop where
  ends : rule.extension <:+ path
  unmarked : rule.implementationMarker ≠ [] → ¬ rule.implementationMarker <:+: path

/-- The reason for which a path is rejected. -/
theorem rejection?_eq_some_iff : rule.rejection? path = some rejection ↔ rule.Rejects path rejection := by
  unfold rejection?
  simp only [Bool.not_eq_true', Bool.and_eq_true, CodeText.occursIn_iff, ← Bool.not_eq_true,
    List.isEmpty_iff, List.isSuffixOf_iff_suffix]
  constructor
  · intro rejected
    split at rejected
    next apart => cases rejected; exact .wrongExtension apart
    next ends =>
      split at rejected
      next marked => cases rejected; exact .implementationFile (not_not.mp ends) marked.1 marked.2
      · cases rejected
  · intro rejects
    cases rejects with
    | wrongExtension apart => rw [if_pos apart]
    | implementationFile ends some occurs =>
        rw [if_neg (not_not.mpr ends), if_pos ⟨some, occurs⟩]

/-- A path is accepted when there is no reason to reject it. -/
theorem rejection?_eq_none_iff : rule.rejection? path = none ↔ rule.Accepts path := by
  rw [Option.eq_none_iff_forall_ne_some]
  simp only [ne_eq, rejection?_eq_some_iff]
  constructor
  · intro free
    have ends : rule.extension <:+ path := Classical.byContradiction fun apart =>
      free _ (.wrongExtension apart)
    exact ⟨ends, fun some occurs => free _ (.implementationFile ends some occurs)⟩
  · intro accepts rejection rejects
    cases rejects with
    | wrongExtension apart => exact apart accepts.ends
    | implementationFile _ some occurs => exact accepts.unmarked some occurs

instance (rule : HeaderRule) (path : CodeText) : Decidable (rule.Accepts path) :=
  decidable_of_iff _ rejection?_eq_none_iff

end HeaderRule

namespace Generation

variable {platform : Platform} {codecs : Codecs} {settings : Settings}

/-! ### Loaded settings -/

/-- The settings were taken out of a mapping, and the choice to restore may have been replaced
since. -/
def Loaded (codecs : Codecs) (settings : Settings) : Prop :=
  ∃ root mapping taken restoring, Settings.ofMapping codecs root mapping = .ok taken ∧
    settings = taken.override { restoring }

/-- What loading gives is loaded. -/
theorem loaded_of_load {here : Directory} {root : Path} {file : Option Path}
    (given : Settings.load platform here root file = .ok settings) (restoring : Option Bool) :
    Loaded platform.codecs (settings.override { restoring }) := by
  obtain ⟨resolved, mapping, _, taken⟩ := Settings.exists_ofMapping_of_load given
  exact ⟨resolved, mapping, settings, restoring, taken, rfl⟩

/-- The codec of loaded settings is found. -/
theorem Loaded.exists_codec (loaded : Loaded codecs settings) :
    ∃ codec, codecs.find settings.encoding = .ok codec := by
  obtain ⟨root, mapping, base, restoring, taken, rfl⟩ := loaded
  obtain ⟨codec, named⟩ := Settings.exists_codec_of_ofMapping taken
  exact ⟨codec, named⟩

/-- No header is called `index`, for the header extension of loaded settings begins with a full
stop. -/
theorem Loaded.not_accepts_index (loaded : Loaded codecs settings) :
    ¬ settings.headerRule.Accepts (codes "index") := by
  obtain ⟨root, mapping, base, restoring, taken, rfl⟩ := loaded
  have dot : CodePoint.char '.' ∈ base.headerExtension :=
    List.mem_of_mem_head? (Settings.ofMapping_eq_ok_iff.mp taken).head?_headerExtension
  intro accepts
  exact absurd (accepts.ends.subset dot) (by decide)

end Generation

end HeaderBook
