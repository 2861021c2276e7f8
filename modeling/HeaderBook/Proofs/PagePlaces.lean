import HeaderBook.Generation
import HeaderBook.Proofs.PlainTree
import HeaderBook.Proofs.SourceListing

/-!
# Where pages lie

The page of a header lies below the output directory as the header lies below the source
directory, under the header's name with the extension of pages after it. So two headers
have their pages at two places. The index page lies where the page of a file `index` would
lie, and no header is called that, since a header's path ends with an extension.
-/

namespace HeaderBook

open HeaderBook.Path (slash)
open SourceScan (relative)

namespace Path

/-- A path that begins with a name has no anchor. -/
theorem anchorOf_relative {names : List CodeText} (some : names ≠ [])
    (plain : ∀ name ∈ names, name ≠ [] ∧ slash ∉ name) (after : CodeText) :
    anchorOf (relative names ++ after) = .relative := by
  obtain ⟨first, rest, rfl⟩ := List.exists_cons_of_ne_nil some
  obtain ⟨nonempty, noSlash⟩ := plain first List.mem_cons_self
  obtain ⟨code, first, rfl⟩ := List.exists_cons_of_ne_nil nonempty
  have start : ∃ text, relative ((code :: first) :: rest) = code :: text := by
    cases rest with
    | nil => exact ⟨first, by simp [relative, Text.join]⟩
    | cons second rest => exact ⟨_, by simp [relative, Text.join, List.intercalate_cons_cons]; rfl⟩
  obtain ⟨text, equal⟩ := start
  have apart : code ≠ slash := fun same => noSlash (same ▸ List.mem_cons_self)
  rw [equal, anchorOf, List.cons_append, List.takeWhile_cons_of_neg (by simpa using apart)]
  rfl

/-- A relative path is read name by name. -/
theorem ofText_relative {names : List CodeText} (some : names ≠ [])
    (plain : ∀ name ∈ names, name ≠ [] ∧ name ≠ here ∧ slash ∉ name) :
    ofText (relative names) = ⟨.relative, names⟩ := by
  have split : Text.split slash (relative names) = names :=
    Text.split_join some fun name member => (plain name member).2.2
  have anchored := anchorOf_relative some
    (fun name member => (plain name member).imp_right And.right) []
  rw [List.append_nil] at anchored
  rw [ofText, anchored, namesOf, split]
  congr 1
  rw [List.filter_eq_self]
  intro name member
  obtain ⟨nonempty, notHere, _⟩ := plain name member
  simp [nonempty, notHere]

/-- A relative path leads on from any path by its names. -/
theorem child_relative (path : Path) {names : List CodeText} (some : names ≠ [])
    (plain : ∀ name ∈ names, name ≠ [] ∧ name ≠ here ∧ slash ∉ name) :
    path.child (relative names) = path.descend names := by
  rw [child, ofText_relative some plain]
  rfl

end Path

/-- What follows the path of a file follows its last name. -/
theorem SourceScan.relative_append (above : List CodeText) (name after : CodeText) :
    relative (above ++ [name]) ++ after = relative (above ++ [name ++ after]) := by
  cases above with
  | nil => simp [relative, Text.join]
  | cons first above =>
      rw [relative, relative, Text.join_concat (List.cons_ne_nil first above),
        Text.join_concat (List.cons_ne_nil first above), List.append_assoc]

namespace Directory

/-- Ordinary names lead down, one directory each. -/
theorem goOn_ordinary (here : Location) {names : List CodeText}
    (ordinary : ∀ name ∈ names, name ≠ [] ∧ name ≠ Path.here ∧ name ≠ Path.above) :
    goOn here names = here ++ names := by
  induction names generalizing here with
  | nil => exact (List.append_nil here).symm
  | cons first names inductionHypothesis =>
      rw [List.forall_mem_cons] at ordinary
      obtain ⟨⟨nonempty, notHere, notAbove⟩, rest⟩ := ordinary
      rw [goOn, List.foldl_cons, if_neg (not_or.mpr ⟨nonempty, notHere⟩), if_neg notAbove]
      refine (inductionHypothesis (here ++ [first]) rest).trans ?_
      rw [List.append_assoc, List.singleton_append]

/-- The place of a path below another is found by going on from there. -/
theorem place_descend (here : Directory) (path : Path) (names : List CodeText) :
    here.place (path.descend names) = goOn (here.place path) (names.map FileName.stored) := by
  rw [place, place, Path.location, Path.location, Path.descend, List.map_append]
  exact List.foldl_append

end Directory

namespace Generation

open FileName (Legal stored)

variable {settings : Settings} {output : Path}

/-- The name of the page for a file with a name. -/
def pageName (settings : Settings) (name : CodeText) : CodeText :=
  name ++ CodePoint.char '.' :: settings.pageExtension

/-- The name of a page is stored as its header's name, a full stop and the extension. -/
theorem stored_pageName {name : CodeText} (legal : Legal name) :
    stored (pageName settings name) = name ++ CodePoint.char '.' :: stored settings.pageExtension := by
  have before : FileName.storedAfter [] name = name := legal.shown
  refine (FileName.storedAfter_append rfl [] name settings.pageExtension).trans ?_
  rw [before]

/-- A legal name with a full stop after it is neither of the names that lead nowhere. -/
theorem ne_dots {name : CodeText} (legal : Legal name) (after : CodeText) :
    name ++ CodePoint.char '.' :: after ≠ [] ∧ name ++ CodePoint.char '.' :: after ≠ Path.here ∧
      name ++ CodePoint.char '.' :: after ≠ Path.above := by
  obtain ⟨code, rest, rfl⟩ := List.exists_cons_of_ne_nil legal.ne_nil
  refine ⟨by simp, by simp [Path.here], ?_⟩
  -- Of two full stops the first would be the name.
  intro equal
  cases rest with
  | nil =>
      obtain ⟨rfl, _⟩ := List.cons.inj equal
      exact legal.ne_here rfl
  | cons next rest => simp [Path.above] at equal

/-- The page of a file lies in the output directory as the file lies in its own. -/
theorem pagePath_relative (noSlash : slash ∉ settings.pageExtension) {above : List CodeText}
    {name : CodeText} (legal : ∀ part ∈ above ++ [name], Legal part) :
    pagePath settings output (relative (above ++ [name])) =
      output.descend (above ++ [pageName settings name]) := by
  have dot : codes "." = [CodePoint.char '.'] := by decide
  rw [pagePath, List.append_assoc, SourceScan.relative_append, dot, List.singleton_append, ← pageName]
  refine Path.child_relative output (by simp) fun part member => ?_
  rcases List.mem_append.mp member with upper | last
  · have legal := legal part (List.mem_append_left _ upper)
    exact ⟨legal.ne_nil, legal.ne_here, legal.noSlash⟩
  · obtain rfl := List.mem_singleton.mp last
    have legal := legal name (by simp)
    obtain ⟨nonempty, notHere, _⟩ := ne_dots legal settings.pageExtension
    refine ⟨nonempty, notHere, ?_⟩
    rw [pageName, List.mem_append, List.mem_cons, not_or, not_or]
    exact ⟨legal.noSlash, by decide, noSlash⟩

/-- The page of a file lies below the output directory as the file lies below the source
directory. -/
theorem place_pagePath (here : Directory) (noSlash : slash ∉ settings.pageExtension)
    {above : List CodeText} {name : CodeText} (legal : ∀ part ∈ above ++ [name], Legal part) :
    here.place (pagePath settings output (relative (above ++ [name]))) =
      here.place output ++
        (above ++ [name ++ CodePoint.char '.' :: stored settings.pageExtension]) := by
  have own := legal name (by simp)
  have same : above.map stored = above := by
    refine (List.map_congr_left fun part member => ?_).trans (List.map_id above)
    exact (legal part (List.mem_append_left _ member)).shown
  rw [pagePath_relative noSlash legal, Directory.place_descend, List.map_append, same, List.map_singleton,
    stored_pageName own]
  refine Directory.goOn_ordinary _ fun part member => ?_
  rcases List.mem_append.mp member with upper | last
  · have legal := legal part (List.mem_append_left _ upper)
    exact ⟨legal.ne_nil, legal.ne_here, legal.ne_above⟩
  · obtain rfl := List.mem_singleton.mp last
    exact ne_dots own _

/-- A path below the source directory all of whose names are legal. -/
def LegalPath (path : CodeText) : Prop :=
  ∃ above name, (∀ part ∈ above ++ [name], Legal part) ∧ path = relative (above ++ [name])

/-- Two files have their pages at two places. -/
theorem eq_of_place_pagePath {here : Directory} (noSlash : slash ∉ settings.pageExtension)
    {path path' : CodeText} (legal : LegalPath path) (legal' : LegalPath path')
    (same : here.place (pagePath settings output path) =
      here.place (pagePath settings output path')) : path = path' := by
  obtain ⟨above, name, legal, rfl⟩ := legal
  obtain ⟨above', name', legal', rfl⟩ := legal'
  rw [place_pagePath here noSlash legal, place_pagePath here noSlash legal', List.append_cancel_left_eq,
    List.append_singleton_inj] at same
  rw [same.1, List.append_cancel_right same.2]

/-- The name of the index page could be the path of a file. -/
theorem legalPath_index : LegalPath (codes "index") :=
  ⟨[], codes "index", by decide +kernel, rfl⟩

/-- The paths of scanned files are legal. -/
theorem legalPath_of_mem_scan {here : Directory} (named : here.tree.WellNamed)
    {homes : Homes} {patterns : List CodeText} {source : Path} {found : List SourceFile}
    (scanned : SourceScan.scan homes here patterns source = .ok found) {file : SourceFile}
    (member : file ∈ found) : LegalPath file.path := by
  obtain ⟨root, top, resolved, standing⟩ := SourceScan.exists_root_of_scan scanned
  obtain ⟨names, listed, rfl⟩ := (SourceScan.mem_scan_iff named standing resolved scanned).mp member
  obtain ⟨held, stands, regular⟩ := listed.regular
  have legal := SourceScan.legal_of_get? named standing stands
  rcases List.eq_nil_or_concat names with rfl | ⟨above, name, rfl⟩
  · -- No names lead to the scanned directory, which is no file.
    obtain rfl := Option.some.inj stands
    cases regular
  · rw [List.concat_eq_append] at legal ⊢
    exact ⟨above, name, legal, rfl⟩

end Generation

end HeaderBook
