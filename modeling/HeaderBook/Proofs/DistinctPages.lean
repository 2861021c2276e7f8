import Mathlib.Data.List.Nodup
import HeaderBook.Platform.Standard
import HeaderBook.Proofs.LoadedSettings
import HeaderBook.Proofs.PagePlaces

/-!
# No two pages share a path

Nothing is asked of the extension of pages. Up to its first slash it belongs to the name
of the page, and behind that it adds names of its own, of which the empty ones and the full
stops vanish. What it adds is the same for every page, so the path of a page still ends with
the same names, and the path of the header can be read off what stands before them.

The index page takes the path that the page of a file `index` would have, and settings that
were loaded accept no header of that name.
-/

namespace HeaderBook

open HeaderBook.Path (slash)
open SourceScan (relative)

namespace Text

variable {α : Type} [DecidableEq α] {separator : α}

/-- A first character that is no separator belongs to the first part. -/
theorem exists_split_cons {item : α} (apart : item ≠ separator) (text : List α) :
    ∃ first rest, split separator (item :: text) = (item :: first) :: rest := by
  rw [split, if_neg apart]
  cases split separator text with
  | nil => exact ⟨[], [], rfl⟩
  | cons first rest => exact ⟨first, rest, rfl⟩

/-- Text without a separator belongs to the first part. -/
theorem split_append_of_not_mem {part after first : List α} {rest : List (List α)}
    (whole : separator ∉ part) (cut : split separator after = first :: rest) :
    split separator (part ++ after) = (part ++ first) :: rest := by
  induction part with
  | nil => exact cut
  | cons item part inductionHypothesis =>
      rw [List.mem_cons, not_or] at whole
      rw [List.cons_append, split, if_neg (Ne.symm whole.1), inductionHypothesis whole.2]
      rfl

/-- What follows joined parts goes on with the last of them. -/
theorem split_join_append {parts : List (List α)} {last after first : List α}
    {rest : List (List α)} (whole : ∀ part ∈ parts ++ [last], separator ∉ part)
    (cut : split separator after = first :: rest) :
    split separator (join [separator] (parts ++ [last]) ++ after) =
      parts ++ (last ++ first) :: rest := by
  induction parts with
  | nil =>
      rw [List.nil_append, join, List.intercalate_singleton]
      exact split_append_of_not_mem (whole last (by simp)) cut
  | cons part parts inductionHypothesis =>
      rw [List.cons_append, List.forall_mem_cons] at whole
      have some : parts ++ [last] ≠ [] :=
        List.append_ne_nil_of_right_ne_nil parts (List.cons_ne_nil last [])
      obtain ⟨second, others, equal⟩ := List.exists_cons_of_ne_nil some
      have later := inductionHypothesis whole.2
      rw [equal] at later
      rw [List.cons_append, equal, join, List.intercalate_cons_cons, List.append_assoc,
        List.append_assoc, List.singleton_append, split_append whole.1]
      exact congrArg (part :: ·) later

end Text

namespace Generation

variable {settings : Settings} {output : Path} {path path' : CodeText}

/-- A name that is read back as it is written. -/
def PlainName (name : CodeText) : Prop :=
  name ≠ [] ∧ name ≠ Path.here ∧ slash ∉ name

instance (name : CodeText) : Decidable (PlainName name) :=
  inferInstanceAs (Decidable (_ ∧ _ ∧ _))

/-- A relative path of such names. It may lead upwards. -/
def RelativePath (path : CodeText) : Prop :=
  ∃ above name, (∀ part ∈ above ++ [name], PlainName part) ∧ path = relative (above ++ [name])

/-- What follows a relative path after a full stop belongs to its last name up to the
first slash, and the rest adds names. -/
theorem namesOf_relative_append {above : List CodeText} {name after first : CodeText}
    {rest : List CodeText} (plain : ∀ part ∈ above ++ [name], PlainName part)
    (cut : Text.split slash after = (CodePoint.char '.' :: first) :: rest) :
    Path.namesOf (relative (above ++ [name]) ++ after) =
      above ++ (name ++ CodePoint.char '.' :: first) ::
        rest.filter fun name => name ≠ [] ∧ name ≠ Path.here := by
  have split := Text.split_join_append (fun part member => (plain part member).2.2) cut
  rw [Path.namesOf, relative, split, List.filter_append, List.filter_cons_of_pos,
    List.filter_eq_self.mpr]
  · intro part member
    obtain ⟨nonempty, notHere, _⟩ := plain part (List.mem_append_left _ member)
    simp [nonempty, notHere]
  · -- A name with a full stop after it has two characters at least.
    obtain ⟨code, name, rfl⟩ := List.exists_cons_of_ne_nil (plain name (by simp)).1
    simp [Path.here]

/-- Every page path is that of the header with the same text after its last name and the
same names after that. -/
theorem exists_pagePath (settings : Settings) :
    ∃ tail more, ∀ (output : Path) {above : List CodeText} {name : CodeText},
      (∀ part ∈ above ++ [name], PlainName part) →
      pagePath settings output (relative (above ++ [name])) =
        output.descend (above ++ (name ++ tail) :: more) := by
  have apart : CodePoint.char '.' ≠ slash := by decide
  obtain ⟨first, rest, cut⟩ := Text.exists_split_cons apart settings.pageExtension
  refine ⟨CodePoint.char '.' :: first, rest.filter fun name => name ≠ [] ∧ name ≠ Path.here, ?_⟩
  intro output above name plain
  have some : above ++ [name] ≠ [] :=
    List.append_ne_nil_of_right_ne_nil above (List.cons_ne_nil name [])
  have anchored := Path.anchorOf_relative some
    (fun part member => (plain part member).imp_right And.right)
    (CodePoint.char '.' :: settings.pageExtension)
  have dot : codes "." ++ settings.pageExtension = CodePoint.char '.' :: settings.pageExtension := rfl
  rw [pagePath, List.append_assoc, dot, Path.child, Path.ofText, anchored,
    namesOf_relative_append plain cut, if_pos rfl]
  rfl

/-- Two headers have two page paths, whatever the extension of pages. -/
theorem eq_of_pagePath (plain : RelativePath path) (plain' : RelativePath path')
    (same : pagePath settings output path = pagePath settings output path') : path = path' := by
  obtain ⟨above, name, plain, rfl⟩ := plain
  obtain ⟨above', name', plain', rfl⟩ := plain'
  obtain ⟨tail, more, described⟩ := exists_pagePath settings
  rw [described output plain, described output plain'] at same
  have names := List.append_cancel_left (congrArg Path.names same)
  rw [List.append_cons, List.append_cons above', List.append_cancel_right_eq,
    List.append_singleton_inj] at names
  rw [names.1, List.append_cancel_right names.2]

/-- The index page has such a path. -/
theorem relativePath_index : RelativePath (codes "index") :=
  ⟨[], codes "index", by decide +kernel, rfl⟩

/-- Under loaded settings the pages of different headers have different paths, and none of
them has the path of the index page. -/
theorem nodup_map_pagePath {codecs : Codecs} (loaded : Loaded codecs settings) (output : Path)
    {paths : List CodeText} (distinct : paths.Nodup) (plain : ∀ path ∈ paths, RelativePath path)
    (accepted : ∀ path ∈ paths, settings.headerRule.rejection? path = none) :
    ((codes "index" :: paths).map (pagePath settings output)).Nodup := by
  have fresh : codes "index" ∉ paths := by
    intro member
    exact loaded.not_accepts_index (HeaderRule.rejection?_eq_none_iff.mp (accepted _ member))
  have all : ∀ path ∈ codes "index" :: paths, RelativePath path :=
    List.forall_mem_cons.mpr ⟨relativePath_index, plain⟩
  refine List.Nodup.map_on ?_ (List.nodup_cons.mpr ⟨fresh, distinct⟩)
  intro path member path' member' same
  exact eq_of_pagePath (all path member) (all path' member') same

/-- Settings whose pages have an extension with slashes, a full stop and a step upwards. -/
def slashedSettings : Settings :=
  { root := ⟨.root, [codes "p"]⟩
    project := codes "p"
    sourceDirectory := ⟨.root, [codes "p", codes "include", codes "p"]⟩
    overview := ⟨.root, [codes "p", codes "README.md"]⟩
    headerExtension := codes ".hh"
    implementationMarker := codes "_impl"
    pageExtension := codes "/a/./../b"
    encoding := "utf-8".toList
    language := codes "en"
    restoring := true
    excludedPaths := [] }

/-- They are loaded from a mapping with such an extension, the choice to restore replaced. -/
theorem loaded_slashedSettings : Loaded Encoding.codecs slashedSettings := by
  have taken : Settings.ofMapping Encoding.codecs slashedSettings.root
      [(.text (codes "page_extension"), .text (codes "../a/./../b"))] =
      .ok { slashedSettings with restoring := false } := by
    decide +kernel
  exact ⟨_, _, _, some true, taken, rfl⟩

/-- A header, one below a directory, and one below a directory that is called like a page. -/
theorem nodup_map_pagePath_slashedSettings :
    let paths := [codes "b.hh", codes "d/b.hh", codes "b.hh./a/b.hh"]
    let site : Path := ⟨.relative, [codes "site"]⟩
    Loaded Encoding.codecs slashedSettings ∧ paths.Nodup ∧ (∀ path ∈ paths, RelativePath path) ∧
      (∀ path ∈ paths, slashedSettings.headerRule.rejection? path = none) ∧
      pagePath slashedSettings site (codes "b.hh") =
        site.descend [codes "b.hh.", codes "a", codes "..", codes "b"] ∧
      ((codes "index" :: paths).map (pagePath slashedSettings site)).Nodup := by
  intro paths site
  have distinct : paths.Nodup := by decide +kernel
  have plain : ∀ path ∈ paths, RelativePath path := by
    simp only [paths, List.forall_mem_cons]
    exact ⟨⟨[], codes "b.hh", by decide +kernel, rfl⟩,
      ⟨[codes "d"], codes "b.hh", by decide +kernel, rfl⟩,
      ⟨[codes "b.hh.", codes "a"], codes "b.hh", by decide +kernel, rfl⟩,
      fun path member => absurd member List.not_mem_nil⟩
  have accepted : ∀ path ∈ paths, slashedSettings.headerRule.rejection? path = none := by
    decide +kernel
  exact ⟨loaded_slashedSettings, distinct, plain, accepted, by decide +kernel,
    nodup_map_pagePath loaded_slashedSettings site distinct plain accepted⟩

end Generation

end HeaderBook
