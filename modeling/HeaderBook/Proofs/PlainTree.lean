import HeaderBook.Proofs.TreeView

/-!
# Trees without links

In a tree without links a walk ends where the names of its path lead without regard to
what stands there. That location is the `place` of the path, and it stays the same while
files and directories are made.

`content` gives the bytes of the files of a tree. `Rewritten` says which of them an
operation replaces: making directories replaces none, whether or not it fails, and a file
that is opened for writing is the only one to change.
-/

namespace HeaderBook

namespace Entry

/-- The bytes of a file. -/
def bytes? : Entry → Option Bytes
  | .file content => some content
  | .directory _ | .link _ => none

theorem bytes?_face (entry : Entry) : entry.face.bytes? = entry.bytes? := by
  cases entry <;> rfl

/-- An entry in which nothing stands, put into a directory in place of another such entry
or of none, is seen there, and all else stays as it was. -/
theorem face_get?_put {new old : Entry} (bare : new.entries = []) {directory : Location}
    {inner : List (CodeText × Entry)} (above : old.get? directory = some (.directory inner))
    {name : CodeText} (free : ∀ held, inner.lookup name = some held → held.entries = [])
    (other : Location) :
    ((new.put old (directory ++ [name])).get? other).map face =
      if other = directory ++ [name] then some new.face else (old.get? other).map face := by
  have deeper {held : Entry} (nothing : held.entries = []) (next : CodeText) (rest : Location) :
      held.get? (next :: rest) = none := by
    rw [get?, nothing, List.lookup_nil, Option.bind_none]
  induction directory generalizing old other with
  | nil =>
      obtain rfl : old = .directory inner := Option.some.inj above
      cases other with
      | nil => simp [put, get?, face]
      | cons first rest =>
          by_cases same : first = name
          · subst same
            cases rest with
            | nil => simp [put, get?, lookup_bind]
            | cons next rest =>
                have before : (directory inner).get? (first :: next :: rest) = none := by
                  rw [get?, entries_directory]
                  cases found : inner.lookup first with
                  | none => rfl
                  | some held => exact deeper (free held found) next rest
                rw [before]
                simp [put, get?, lookup_bind, bare]
          · simp [put, get?, lookup_bind, same]
  | cons step directory inductionHypothesis =>
      obtain ⟨held, child, lower⟩ := Option.bind_eq_some_iff.mp above
      obtain ⟨entries, rfl⟩ := exists_directory_of_lookup child
      rw [entries_directory] at child
      cases other with
      | nil => simp [put, get?, face]
      | cons first rest =>
          by_cases same : first = step
          · subst same
            simpa [put, get?, lookup_bind, child] using inductionHypothesis lower rest
          · simp [put, get?, lookup_bind, same]

end Entry

namespace FileTree

/-- The bytes of the file at a location. -/
def content (tree : FileTree) (location : Location) : Option Bytes :=
  (tree.get? location).bind Entry.bytes?

/-- The content at a location is that of a file there. -/
theorem content_eq_some_iff {tree : FileTree} {location : Location} {bytes : Bytes} :
    tree.content location = some bytes ↔ tree.get? location = some (.file bytes) := by
  unfold content
  cases tree.get? location with
  | none => simp
  | some held => cases held <;> simp [Entry.bytes?]

/-- What is put below the root is put into the root's entry. -/
theorem get?_put {tree : FileTree} {location : Location} (below : location ≠ []) (entry : Entry)
    (other : Location) :
    (tree.put location entry).get? other = (entry.put tree.root location).get? other := by
  cases location with
  | nil => exact absurd rfl below
  | cons name rest => rfl

/-- A location that something could be put into: it lies in a directory, and nothing
stands below it. -/
structure Open (tree : FileTree) (location : Location) : Prop where
  exists_directory : ∃ directory name inner, location = directory ++ [name] ∧
    tree.get? directory = some (.directory inner)
  bare : ∀ held, tree.get? location = some held → held.entries = []

/-- An open location is not the root. -/
theorem Open.ne_nil {tree : FileTree} {location : Location} (isOpen : tree.Open location) :
    location ≠ [] := by
  obtain ⟨directory, name, _, rfl, _⟩ := isOpen.exists_directory
  simp

/-- Putting a bare entry into an open location changes the face of nothing else. -/
theorem face_put {tree : FileTree} {location : Location} (isOpen : tree.Open location)
    {entry : Entry} (bare : entry.entries = []) (other : Location) :
    ((tree.put location entry).get? other).map Entry.face =
      if other = location then some entry.face else (tree.get? other).map Entry.face := by
  rw [get?_put isOpen.ne_nil]
  obtain ⟨directory, name, inner, rfl, above⟩ := isOpen.exists_directory
  refine Entry.face_get?_put bare above (fun held found => isOpen.bare held ?_) other
  rwa [get?_concat above]

/-- The content at a location is seen from the face of what stands there. -/
theorem content_eq (tree : FileTree) (location : Location) :
    tree.content location = ((tree.get? location).map Entry.face).bind Entry.bytes? := by
  unfold content
  cases tree.get? location with
  | none => rfl
  | some held => exact (Entry.bytes?_face held).symm

/-- Putting a bare entry into an open location changes the content of nothing else. -/
theorem content_put {tree : FileTree} {location : Location} (isOpen : tree.Open location)
    {entry : Entry} (bare : entry.entries = []) (other : Location) :
    (tree.put location entry).content other =
      if other = location then entry.bytes? else tree.content other := by
  rw [content_eq, face_put isOpen bare, content_eq tree]
  split
  · exact Entry.bytes?_face entry
  · rfl

/-- What stands below the root directory stands in a directory. -/
theorem exists_directory_of_concat {tree : FileTree} {directory : Location} {name : CodeText}
    {held : Entry} (stands : tree.get? (directory ++ [name]) = some held) :
    ∃ inner, tree.get? directory = some (.directory inner) := by
  obtain ⟨outer, above, inside⟩ := Option.bind_eq_some_iff.mp
    ((Entry.get?_append tree.root directory [name]).symm.trans stands)
  rw [Entry.get?_singleton] at inside
  obtain ⟨inner, rfl⟩ := Entry.exists_directory_of_lookup inside
  exact ⟨inner, above⟩

/-- A file can be replaced where it is. -/
theorem open_of_file {tree : FileTree} {location : Location} {bytes : Bytes}
    (stands : tree.get? location = some (.file bytes)) : tree.Open location := by
  constructor
  · rcases List.eq_nil_or_concat location with rfl | ⟨directory, name, rfl⟩
    · cases stands
    · rw [List.concat_eq_append] at stands ⊢
      obtain ⟨inner, above⟩ := exists_directory_of_concat stands
      exact ⟨directory, name, inner, rfl, above⟩
  · intro held found
    obtain rfl := Option.some.inj (stands.symm.trans found)
    rfl

/-- A new entry can be made in a directory. -/
theorem open_of_vacant {tree : FileTree} {directory : Location} {name : CodeText}
    {inner : List (CodeText × Entry)} (above : tree.get? directory = some (.directory inner))
    (missing : tree.get? (directory ++ [name]) = none) : tree.Open (directory ++ [name]) := by
  refine ⟨⟨directory, name, inner, rfl, above⟩, fun held found => ?_⟩
  cases missing.symm.trans found

/-- The directory above a directory is a directory. -/
theorem exists_directory_dropLast {tree : FileTree} {location : Location}
    {inner : List (CodeText × Entry)} (stands : tree.get? location = some (.directory inner)) :
    ∃ outer, tree.get? location.dropLast = some (.directory outer) := by
  rcases List.eq_nil_or_concat location with rfl | ⟨directory, name, rfl⟩
  · exact ⟨inner, stands⟩
  · rw [List.concat_eq_append] at stands ⊢
    rw [List.dropLast_concat]
    exact exists_directory_of_concat stands

/-- A walk ends at a place: at the entry that stands there, or in the directory where an
entry could be made there. -/
inductive EndsAt (tree : FileTree) (place : Location) : Arrival → Prop where
  | entry {held : Entry} (stands : tree.get? place = some held) :
      EndsAt tree place (.entry place held)
  | vacant {directory : Location} {name : CodeText} {inner : List (CodeText × Entry)}
      (above : tree.get? directory = some (.directory inner))
      (missing : tree.get? (directory ++ [name]) = none) (same : directory ++ [name] = place) :
      EndsAt tree place (.vacant directory name)

open Directory (goOn)

/-- Without links, going along names from a directory ends where the names lead. -/
theorem endsAt_of_walkAlong {tree : FileTree}
    (unlinked : ∀ location target, tree.get? location ≠ some (.link target)) {purpose : Purpose}
    {follow : Location → List CodeText → Except Fault Arrival} {here : Location}
    {names : List CodeText} {arrival : Arrival}
    (start : ∃ inner, tree.get? here = some (.directory inner))
    (walked : tree.walkAlong purpose follow here names = .ok arrival) :
    tree.EndsAt (goOn here names) arrival := by
  have onward {here : Location} {name : CodeText} (rest : List CodeText)
      (counts : ¬ (name = [] ∨ name = Path.here)) (notAbove : name ≠ Path.above) :
      goOn here (name :: rest) = goOn (here ++ [name]) rest := by
    rw [goOn, List.foldl_cons, if_neg counts, if_neg notAbove]
    rfl
  fun_induction walkAlong tree purpose follow here names with
  | case1 here held found =>
      cases walked
      exact .entry found
  | case2 | case5 | case6 | case8 | case11 => cases walked
  | case3 here name rest skipped inductionHypothesis =>
      have stay : goOn here (name :: rest) = goOn here rest := by
        rw [goOn, List.foldl_cons, if_pos skipped]
        rfl
      rw [stay]
      exact inductionHypothesis start walked
  | case4 here rest _ inductionHypothesis =>
      obtain ⟨inner, stands⟩ := start
      exact inductionHypothesis (exists_directory_dropLast stands) walked
  | case7 here name rest counts notAbove _ _ missing last =>
      cases walked
      obtain rfl := List.isEmpty_iff.mp last
      obtain ⟨inner, stands⟩ := start
      rw [onward [] counts notAbove]
      exact .vacant stands missing rfl
  | case9 here name rest counts notAbove _ _ inner stands inductionHypothesis =>
      rw [onward rest counts notAbove]
      exact inductionHypothesis ⟨inner, stands⟩ walked
  | case10 here name rest counts notAbove _ _ bytes stands last =>
      cases walked
      obtain rfl := List.isEmpty_iff.mp last
      rw [onward [] counts notAbove]
      exact .entry stands
  -- There is no link to follow, so nothing is assumed of `follow`.
  | case12 here name rest _ _ _ _ target stands => exact absurd stands (unlinked _ target)
  | case13 here name rest _ _ _ _ target stands => exact absurd stands (unlinked _ target)

/-- Without links, a walk from a directory ends where its names lead. -/
theorem endsAt_of_walkFrom {tree : FileTree}
    (unlinked : ∀ location target, tree.get? location ≠ some (.link target)) {purpose : Purpose}
    {links : Nat} {here : Location} {names : List CodeText} {arrival : Arrival}
    (start : ∃ inner, tree.get? here = some (.directory inner))
    (walked : tree.walkFrom purpose links here names = .ok arrival) :
    tree.EndsAt (goOn here names) arrival := by
  obtain ⟨follow, equal⟩ := exists_walkAlong tree purpose links
  rw [equal] at walked
  exact endsAt_of_walkAlong unlinked start walked

end FileTree

namespace Directory

open FileTree (Purpose Arrival)

/-- There are no links, and the current directory is one. -/
structure Plain (here : Directory) : Prop where
  unlinked : ∀ location target, here.tree.get? location ≠ some (.link target)
  current : ∃ inner, here.tree.get? here.current = some (.directory inner)

/-- A tree of files and directories only is plain. -/
theorem Plain.of_all {here : Directory}
    (solid : ∀ item ∈ here.tree.all, item.2.isDirectory = true ∨ item.2.bytes?.isSome = true)
    (current : ∃ inner, here.tree.get? here.current = some (.directory inner)) : here.Plain := by
  refine ⟨fun location target found => ?_, current⟩
  have below : location ≠ [] := by
    rintro rfl
    cases found
  rcases solid _ (Entry.mem_within [] below found) with directory | file
  · cases directory
  · cases file

/-- The location to which a path leads where there are no links. -/
def place (here : Directory) (path : Path) : Location :=
  goOn (here.origin path) path.location

/-- The place of a path depends on the current directory only. -/
theorem place_eq_of_current {here there : Directory} (same : there.current = here.current)
    (path : Path) : there.place path = here.place path := by
  rw [place, place, origin, origin, same]

/-- `there` is `here` after the content of some files has been replaced, the latest
content first. Directories may have been made. -/
structure Rewritten (here : Directory) (written : List (Location × Bytes)) (there : Directory) :
    Prop where
  plain : there.Plain
  current : there.current = here.current
  content : ∀ location,
    there.tree.content location = (written.lookup location).or (here.tree.content location)

/-- Nothing is written at first. -/
theorem Rewritten.refl {here : Directory} (plain : here.Plain) : here.Rewritten [] here :=
  ⟨plain, rfl, fun _ => rfl⟩

/-- What is written later comes before what was written earlier. -/
theorem Rewritten.trans {first second third : Directory} {before after : List (Location × Bytes)}
    (one : first.Rewritten before second) (other : second.Rewritten after third) :
    first.Rewritten (after ++ before) third := by
  refine ⟨other.plain, other.current.trans one.current, fun location => ?_⟩
  rw [other.content, one.content, List.lookup_append, Option.or_assoc]

section

variable {here there : Directory} {path : Path} (plain : here.Plain)

include plain

/-- Without links every walk ends at the place of its path. -/
theorem Plain.endsAt {purpose : Purpose} {arrival : Arrival}
    (walked : here.walk purpose path = .ok arrival) :
    here.tree.EndsAt (here.place path) arrival := by
  refine FileTree.endsAt_of_walkFrom plain.unlinked ?_ (walk_eq_ok_iff.mp walked).2
  unfold origin
  split
  · exact plain.current
  · exact ⟨here.tree.entries, rfl⟩

/-- What is put into an open location is seen there, and directories stay directories. -/
theorem Plain.put {location : Location} (isOpen : here.tree.Open location) {entry : Entry}
    (bare : entry.entries = []) (solid : ∀ target, entry ≠ .link target)
    (apart : location = here.current → ∃ inner, entry = .directory inner) :
    (here.put location entry).Plain := by
  have seen := FileTree.face_put isOpen bare
  constructor
  · intro other target found
    have face := seen other
    change (here.tree.put location entry).get? other = _ at found
    rw [found] at face
    split at face
    · exact solid target (Entry.face_eq_link_iff.mp (Option.some.inj face).symm)
    · obtain ⟨held, stands, same⟩ := Option.map_eq_some_iff.mp face.symm
      rw [Entry.face_eq_link_iff.mp same] at stands
      exact plain.unlinked other target stands
  · have face := seen here.current
    change ∃ inner, (here.tree.put location entry).get? here.current = _
    split at face
    next same =>
      obtain ⟨inner, rfl⟩ := apart same.symm
      obtain ⟨held, stands, equal⟩ := Option.map_eq_some_iff.mp face
      obtain ⟨held', rfl⟩ := Entry.face_eq_directory_iff.mp equal
      exact ⟨held', stands⟩
    · obtain ⟨inner, standing⟩ := plain.current
      rw [standing] at face
      obtain ⟨held, stands, equal⟩ := Option.map_eq_some_iff.mp face
      obtain ⟨held', rfl⟩ := Entry.face_eq_directory_iff.mp equal
      exact ⟨held', stands⟩

/-- Making a directory leaves every file as it is. -/
theorem Plain.rewritten_makeDirectory (made : here.makeDirectory path = .ok there) :
    here.Rewritten [] there := by
  obtain ⟨arrival, walked, rest⟩ := bind_eq_ok_iff.mp made
  cases plain.endsAt walked with
  | entry stands => cases rest
  | @vacant directory name inner above missing _ =>
      obtain rfl := Except.ok.inj rest
      have isOpen := FileTree.open_of_vacant above missing
      refine ⟨plain.put isOpen rfl (by simp) fun _ => ⟨[], rfl⟩, rfl, fun location => ?_⟩
      refine (FileTree.content_put isOpen rfl location).trans ?_
      split
      next same => rw [same, FileTree.content, missing]; rfl
      · rfl

/-- Making directories leaves every file as it is, whether or not it fails. -/
theorem Plain.rewritten_makeDirectories (path : Path) :
    here.Rewritten [] (here.makeDirectories path).2 := by
  fun_induction makeDirectories here path with
  | case1 path made equal => exact plain.rewritten_makeDirectory equal
  | case2 => exact .refl plain
  | case3 path _ _ failure between above inductionHypothesis =>
      rw [above] at inductionHypothesis
      exact inductionHypothesis
  | case4 path _ _ between above made equal inductionHypothesis =>
      rw [above] at inductionHypothesis
      exact inductionHypothesis.trans (inductionHypothesis.plain.rewritten_makeDirectory equal)
  | case5 path _ _ between above _ inductionHypothesis =>
      rw [above] at inductionHypothesis
      exact inductionHypothesis
  | case6 path _ _ between above _ _ _ inductionHypothesis =>
      rw [above] at inductionHypothesis
      exact inductionHypothesis
  | case7 => exact .refl plain

/-- Making directories rewrites no file. -/
theorem Plain.rewritten_ensureDirectory (path : Path) :
    here.Rewritten [] (here.ensureDirectory path).2 := by
  unfold ensureDirectory
  split
  · exact .refl plain
  · exact plain.rewritten_makeDirectories path

/-- Writing a file that can be put where it is leaves every other file as it is. -/
theorem Plain.rewritten_put {location : Location} (isOpen : here.tree.Open location)
    (apart : location ≠ here.current) (bytes : Bytes) :
    here.Rewritten [(location, bytes)] (here.put location (.file bytes)) := by
  refine ⟨plain.put isOpen rfl (by simp) fun same => absurd same apart, rfl, fun other => ?_⟩
  refine (FileTree.content_put isOpen rfl other).trans ?_
  rw [List.lookup_cons, List.lookup_nil]
  split
  next same => rw [same, beq_self_eq_true]; rfl
  next differs => rw [beq_eq_false_iff_ne.mpr differs]; rfl

/-- The current directory is no file. -/
theorem Plain.ne_current {location : Location}
    (missing : ∀ inner, here.tree.get? location ≠ some (.directory inner)) :
    location ≠ here.current := by
  rintro rfl
  obtain ⟨inner, stands⟩ := plain.current
  exact missing inner stands

/-- Writing a file that stands leaves every other file as it is. -/
theorem Plain.rewritten_file {location : Location} {old : Bytes}
    (stands : here.tree.get? location = some (.file old)) (bytes : Bytes) :
    here.Rewritten [(location, bytes)] (here.put location (.file bytes)) := by
  refine plain.rewritten_put (FileTree.open_of_file stands) (plain.ne_current ?_) bytes
  intro inner other
  cases stands.symm.trans other

/-- A file that is opened for writing is emptied or made empty, at the place of its path. -/
theorem Plain.rewritten_truncate {location : Location}
    (opened : here.truncate path = .ok (location, there)) :
    location = here.place path ∧ here.Rewritten [(location, [])] there := by
  unfold truncate openFile at opened
  split at opened
  · cases opened
  next walked =>
    cases plain.endsAt walked with
    | entry stands =>
        cases opened
        exact ⟨rfl, plain.rewritten_file stands []⟩
  · cases opened
  · cases opened
  next walked =>
    cases plain.endsAt walked with
    | vacant above missing same =>
        cases opened
        refine ⟨same, plain.rewritten_put (FileTree.open_of_vacant above missing)
          (plain.ne_current ?_) []⟩
        intro inner other
        cases missing.symm.trans other
  · cases opened

/-- What is found at a path stands at its place. -/
theorem Plain.get?_of_find {held : Entry} (found : here.find path = .ok (some held)) :
    here.tree.get? (here.place path) = some held := by
  obtain ⟨_, location, walked⟩ := find_eq_some_iff.mp found
  cases plain.endsAt walked with
  | entry stands => exact stands

/-- What is read at a path is the content of the file at its place. -/
theorem Plain.content_of_read {bytes : Bytes} (read : here.read path = .ok bytes) :
    here.tree.content (here.place path) = some bytes :=
  FileTree.content_eq_some_iff.mpr (plain.get?_of_find (find_of_read read))

end

end Directory

end HeaderBook
